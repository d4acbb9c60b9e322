/-
  Reflash.Datagram.Acknowledgement

  A node's answer to one datagram: which one it was, and the number of the fault
  that it ended with, zero for success.
-/
import Reflash.Datagram.Basic

namespace Reflash

structure Acknowledgement where
  /-- Whether the datagram was taken. -/
  accepted : Bool
  kind : Datagram.Kind
  id : UInt32
  /-- The number of the fault, zero when there is none. -/
  code : UInt32
  deriving DecidableEq, Inhabited

namespace Acknowledgement

/-- Bytes of an encoded acknowledgement. -/
def encodedSize : Nat := 10

/-- The answer that reports a result. -/
def ofResult (kind : Datagram.Kind) (id : UInt32) : Except Fault Unit → Acknowledgement
  | .ok () => { accepted := true, kind, id, code := 0 }
  | .error fault => { accepted := false, kind, id, code := fault.code }

/-- The fault reported, if its number is a known one. -/
def fault? (ack : Acknowledgement) : Option Fault :=
  Fault.ofCode? ack.code

def statusName (ack : Acknowledgement) : String :=
  if ack.accepted then "Ack" else "Nack"

def encode (ack : Acknowledgement) : Bytes :=
  (if ack.accepted then 0 else 1) :: ack.kind.code ::
    (LittleEndian.encode32 ack.id ++ LittleEndian.encode32 ack.code)

/-- Reads an acknowledgement from the first 10 bytes. -/
def decode (bytes : Bytes) : Except Fault Acknowledgement :=
  if bytes.length < encodedSize then .error .invalidDatagram
  else do
    let accepted ← match bytes.byteAt 0 with
      | 0 => .ok true
      | 1 => .ok false
      | _ => .error .invalidDatagram
    match Datagram.Kind.ofCode (bytes.byteAt 1) with
    | .error _ => .error .invalidDatagram
    | .ok kind => .ok {
        accepted, kind
        id := LittleEndian.word32At bytes 2
        code := LittleEndian.word32At bytes 6 }

/-- The datagram that carries an answer has the id of the datagram it answers. -/
def toDatagram (ack : Acknowledgement) (target : Option UInt8) : Datagram :=
  .pack .acknowledgement ack.id target ack.encode

end Acknowledgement

end Reflash
