/-
  Reflash.Datagram.JumpRequest

  The request to leave the bootloader for the application. A node obeys only a
  request with the agreed magic number and its flag set to one.
-/
import Reflash.Datagram.Basic

namespace Reflash

structure JumpRequest where
  magic : UInt32 := 0xDEADBEEF
  validation : UInt8 := 1
  deriving DecidableEq, Inhabited

namespace JumpRequest

/-- The magic number a node obeys. -/
def agreedMagic : UInt32 := 0xDEADBEEF

/-- Bytes of an encoded request. -/
def encodedSize : Nat := 5

def encode (request : JumpRequest) : Bytes :=
  LittleEndian.encode32 request.magic ++ [request.validation]

/-- Reads and checks a request. -/
def decode (bytes : Bytes) : Except Fault JumpRequest :=
  let request : JumpRequest :=
    { magic := LittleEndian.word32At bytes 0, validation := bytes.byteAt 4 }
  if bytes.length < encodedSize then .error .invalidDatagram
  else if request.magic ≠ agreedMagic ∨ request.validation ≠ 1 then .error .invalidDatagram
  else .ok request

def toDatagram (request : JumpRequest) (id : UInt32) (target : Option UInt8) : Datagram :=
  .pack .jumpToApp id target request.encode

end JumpRequest

end Reflash
