/-
  Reflash.Fault

  What can go wrong, as causes. Each cause has a number, carried on the wire in
  negative acknowledgements, a name and a sentence for people. Zero is no
  cause's number; `ofCode?` is the inverse of `code`.
-/

namespace Reflash

/-- What a flash part can refuse. -/
inductive FlashFault where
  /-- Offset or length off the part's granularity. -/
  | notAligned
  /-- The request reaches outside the part. -/
  | outOfBounds
  | readFailed
  | writeFailed
  | eraseFailed
  deriving DecidableEq, Inhabited

/-- Why an operation was refused or failed. -/
inductive Fault where
  /-- An argument was out of range or too small. -/
  | invalidArgs
  /-- Something of fixed capacity is full. -/
  | resourceExhausted
  /-- A packet the reassembler does not take: duplicate, wrong message, bad sequence. -/
  | internalError
  | timeout
  /-- The byte transport failed other than by running dry. -/
  | transportFailure
  | crcMismatch
  /-- Markers, kind or length of a frame are impossible. -/
  | invalidPacket
  | flash (cause : FlashFault)
  /-- The staged or the installed image does not check out. -/
  | flashVerificationFailed
  /-- A message of this kind is not taken in the present state. -/
  | bootloaderInvalidState
  | bootloaderUninitialized
  /-- The payload does not decode for its kind. -/
  | invalidDatagram
  /-- A firmware chunk with an unexpected id. -/
  | sequenceOutOfOrder
  /-- More image than was announced, or than fits. -/
  | binaryOversized
  /-- Control came back from a jump. -/
  | bootloaderFailure
  deriving DecidableEq, Inhabited

namespace FlashFault

/-- Every flash fault, in the order of declaration. -/
def all : List FlashFault :=
  [notAligned, outOfBounds, readFailed, writeFailed, eraseFailed]

def name : FlashFault → String
  | notAligned => "NotAligned"
  | outOfBounds => "OutOfBounds"
  | readFailed => "ReadFailed"
  | writeFailed => "WriteFailed"
  | eraseFailed => "EraseFailed"

def message : FlashFault → String
  | notAligned => "flash access not aligned"
  | outOfBounds => "flash access out of bounds"
  | readFailed => "flash read failed"
  | writeFailed => "flash write failed"
  | eraseFailed => "flash erase failed"

end FlashFault

namespace Fault

/-- Every fault, in the order of declaration. -/
def all : List Fault :=
  [invalidArgs, resourceExhausted, internalError, timeout, transportFailure, crcMismatch,
    invalidPacket] ++ FlashFault.all.map flash ++
  [flashVerificationFailed, bootloaderInvalidState, bootloaderUninitialized, invalidDatagram,
    sequenceOutOfOrder, binaryOversized, bootloaderFailure]

/-- The number that stands for the fault on the wire. -/
def code : Fault → UInt32
  | resourceExhausted => 1
  | invalidArgs => 2
  | internalError => 3
  | timeout => 4
  | crcMismatch => 5
  | flash .writeFailed => 7
  | flash .outOfBounds => 8
  | flash .notAligned => 9
  | flash .readFailed => 10
  | flash .eraseFailed => 11
  | flashVerificationFailed => 12
  | invalidPacket => 13
  | bootloaderInvalidState => 14
  | bootloaderUninitialized => 15
  | invalidDatagram => 16
  | bootloaderFailure => 18
  | sequenceOutOfOrder => 22
  | binaryOversized => 23
  | transportFailure => 24

/-- The fault with the given number, if there is one. -/
def ofCode? (n : UInt32) : Option Fault :=
  all.find? fun fault => fault.code == n

def name : Fault → String
  | invalidArgs => "InvalidArgs"
  | resourceExhausted => "ResourceExhausted"
  | internalError => "InternalError"
  | timeout => "Timeout"
  | transportFailure => "TransportFailure"
  | crcMismatch => "CrcMismatch"
  | invalidPacket => "InvalidPacket"
  | flash cause => "Flash(" ++ cause.name ++ ")"
  | flashVerificationFailed => "FlashVerificationFailed"
  | bootloaderInvalidState => "BootloaderInvalidState"
  | bootloaderUninitialized => "BootloaderUninitialized"
  | invalidDatagram => "InvalidDatagram"
  | sequenceOutOfOrder => "SequenceOutOfOrder"
  | binaryOversized => "BinaryOversized"
  | bootloaderFailure => "BootloaderFailure"

/-- The fault with the given name, if there is one. -/
def ofName? (text : String) : Option Fault :=
  all.find? fun fault => fault.name == text

def message : Fault → String
  | invalidArgs => "invalid arguments"
  | resourceExhausted => "resource exhausted"
  | internalError => "datagram reassembly rejected the packet"
  | timeout => "operation timed out"
  | transportFailure => "transport failure"
  | crcMismatch => "CRC32 mismatch"
  | invalidPacket => "invalid packet"
  | flash cause => cause.message
  | flashVerificationFailed => "flash verification failed"
  | bootloaderInvalidState => "datagram not valid in current bootloader state"
  | bootloaderUninitialized => "bootloader not initialised"
  | invalidDatagram => "invalid datagram payload"
  | sequenceOutOfOrder => "firmware chunk out of order"
  | binaryOversized => "firmware binary oversized"
  | bootloaderFailure => "jump returned to the bootloader"

theorem ofCode?_code (fault : Fault) : ofCode? fault.code = some fault := by
  cases fault <;> try rfl
  rename_i cause
  cases cause <;> rfl

theorem code_ne_zero (fault : Fault) : fault.code ≠ 0 := by
  cases fault <;> try decide
  rename_i cause
  cases cause <;> decide

end Fault

end Reflash
