/-
  Reflash.Install.Installer

  The update of a node's firmware, one datagram at a time:

      idle --metadata--> receiving --last chunk--> complete --finalized--> installed

  Chunks go to the staging region as they come. Once the last one is in, the
  staged image is checked against the announced checksum and copied into the
  active region. Nothing is jumped to before a jump request arrives. The record of
  the installed image is erased before the active region is touched, and written
  only after the copy has read back right, so that a copy cut short leaves no
  record that vouches for a torn image.
-/
import Reflash.Datagram.JumpRequest
import Reflash.Install.Record

namespace Reflash

/-! ## States -/

/-- How far an update has come. -/
inductive Stage where
  | idle
  /-- Receiving the image of `manifest`: `written` bytes staged in `chunks` chunks. -/
  | receiving (manifest : Manifest) (written chunks : Nat)
  /-- Every byte is staged, but the image is not installed yet. -/
  | complete (manifest : Manifest)
  /-- Installed, waiting to be jumped to. -/
  | installed (manifest : Manifest)
  deriving DecidableEq, Inhabited

inductive Installer where
  /-- No layout accepted yet. -/
  | uninitialized
  | ready (layout : Layout) (stage : Stage)
  deriving DecidableEq, Inhabited

namespace Installer

/-! ## Views -/

def stateName : Installer → String
  | uninitialized => "Uninitialized"
  | ready _ .idle => "Idle"
  | ready _ (.receiving ..) => "Receiving"
  | ready _ (.complete _) => "Complete"
  | ready _ (.installed _) => "Jump"

/-- What is known of the image being received or installed. -/
def manifest? : Installer → Option Manifest
  | uninitialized => none
  | ready _ .idle => none
  | ready _ (.receiving manifest ..) => some manifest
  | ready _ (.complete manifest) => some manifest
  | ready _ (.installed manifest) => some manifest

/-- Bytes staged so far, and bytes of the whole image. -/
def progress : Installer → Nat × Nat
  | uninitialized => (0, 0)
  | ready _ .idle => (0, 0)
  | ready _ (.receiving manifest written _) => (written, manifest.size.toNat)
  | ready _ (.complete manifest) => (manifest.size.toNat, manifest.size.toNat)
  | ready _ (.installed manifest) => (manifest.size.toNat, manifest.size.toNat)

/-- Adopts a layout and forgets any update under way; an unusable layout changes nothing. -/
def configure (g : Geometry) (installer : Installer) (layout : Layout) :
    Except Fault Unit × Installer :=
  match layout.check g with
  | .error fault => (.error fault, installer)
  | .ok () => (.ok (), .ready layout .idle)

/-! ## Steps on flash -/

/-- Programs a chunk; the part of it beyond the last whole write is filled up with erased
bytes. -/
def writeChunk (g : Geometry) (offset : Nat) (data : Bytes) : FlashTask Unit := do
  let aligned := data.length - data.length % g.writeSize
  if 0 < aligned then
    FlashTask.write offset (data.take aligned)
  if aligned < data.length then
    let tail := data.drop aligned
    FlashTask.write (offset + aligned)
      (tail ++ List.replicate (g.writeSize - tail.length) Flash.erasedByte)

/-- Checks the staged image and installs it. -/
def finalize (g : Geometry) (layout : Layout) (manifest : Manifest) : FlashTask Unit := do
  let staged ← Pages.crc layout.staging manifest.size.toNat
  if staged ≠ manifest.crc then throw .flashVerificationFailed
  -- From here until the end no record vouches for the active region.
  if let some offset := layout.record? then
    Record.clear g offset
  Pages.copy g layout.staging layout.active manifest.size.toNat
  -- The copy is read back: flash that took a wrong byte does not say so.
  let installed ← Pages.crc layout.active manifest.size.toNat
  if installed ≠ manifest.crc then throw .flashVerificationFailed
  if let some offset := layout.record? then
    Record.store g offset manifest

/-- Checks that the active region holds an image worth running. With a record page the region
has to match the record; without one it only must not begin blank. -/
def checkActive (layout : Layout) : FlashTask Unit := do
  match layout.record? with
  | none =>
    if ← Pages.isBlank layout.active (min layout.regionSize Pages.blockSize) then
      throw .flashVerificationFailed
  | some offset =>
    let some record ← Record.load offset | throw .flashVerificationFailed
    -- A record that is damaged, or was made for another layout.
    if record.size = 0 ∨ record.size.toNat > layout.regionSize then
      throw .flashVerificationFailed
    let crc ← Pages.crc layout.active record.size.toNat
    if crc ≠ record.crc then throw .flashVerificationFailed

/-- Jumps; a jump that comes back has failed, whatever it says. -/
def jumpTo (target : JumpTarget) : Procedure Fault :=
  .jump target (pure .bootloaderFailure)

/-! ## Datagrams -/

/-- Takes the announcement of an image and clears room for it. -/
def acceptManifest (g : Geometry) (layout : Layout) (data : Bytes) :
    Procedure (Except Fault Unit × Stage) :=
  match Manifest.decode data with
  | .error fault => pure (.error fault, .idle)
  | .ok manifest =>
    if manifest.size = 0 ∨ manifest.size.toNat > layout.regionSize then
      pure (.error .binaryOversized, .idle)
    else do
      let last := layout.staging + Pages.span g manifest.size.toNat
      match ← (FlashTask.erase layout.staging last).run with
      | .error fault => pure (.error fault, .idle)
      | .ok () => pure (.ok (), .receiving manifest 0 0)

/-- Why a chunk is refused before anything is written, if it is. -/
def refuseChunk (g : Geometry) (manifest : Manifest) (written chunks : Nat)
    (datagram : Datagram) : Option Fault :=
  let length := datagram.data.length
  let remaining := manifest.size.toNat - written
  if datagram.id.toNat ≠ chunks then some .sequenceOutOfOrder
  else if length = 0 then some .invalidDatagram
  else if length > remaining then some .binaryOversized
  -- Only the last chunk may end inside a write, for only behind it nothing follows.
  else if length ≠ remaining ∧ length % g.writeSize ≠ 0 then some .invalidDatagram
  else none

/-- Takes a chunk. A chunk that was not programmed to its end cannot be programmed again, so a
failed write abandons the image. The last chunk is followed by the installation. -/
def acceptChunk (g : Geometry) (layout : Layout) (manifest : Manifest) (written chunks : Nat)
    (datagram : Datagram) : Procedure (Except Fault Unit × Stage) :=
  match refuseChunk g manifest written chunks datagram with
  | some fault => pure (.error fault, .receiving manifest written chunks)
  | none => do
    match ← (writeChunk g (layout.staging + written) datagram.data).run with
    | .error fault => pure (.error fault, .idle)
    | .ok () =>
      let written := written + datagram.data.length
      if written ≠ manifest.size.toNat then
        pure (.ok (), .receiving manifest written (chunks + 1))
      else
        match ← (finalize g layout manifest).run with
        | .error fault => pure (.error fault, .complete manifest)
        | .ok () => pure (.ok (), .installed manifest)

/-- Jumps to the installed image, unless the active region is blank. Always ends in a fault,
for a jump that succeeds does not come back. -/
def leave (layout : Layout) (manifest : Manifest) : Procedure Fault := do
  match ← (Pages.isBlank layout.active manifest.size.toNat).run with
  | .error fault => pure fault
  | .ok true => pure .flashVerificationFailed
  | .ok false => jumpTo .application

/-- Takes a jump request, after another attempt at an installation that has not succeeded. -/
def acceptJump (g : Geometry) (layout : Layout) (stage : Stage) (data : Bytes) :
    Procedure (Except Fault Unit × Stage) :=
  match JumpRequest.decode data with
  | .error fault => pure (.error fault, stage)
  | .ok _ =>
    match stage with
    | .idle | .receiving .. => pure (.error .bootloaderInvalidState, stage)
    | .complete manifest => do
      match ← (finalize g layout manifest).run with
      | .error fault => pure (.error fault, .complete manifest)
      | .ok () => pure (.error (← leave layout manifest), .installed manifest)
    | .installed manifest => do
      pure (.error (← leave layout manifest), .installed manifest)

/-- Takes one complete, verified datagram. -/
def process (g : Geometry) (installer : Installer) (datagram : Datagram) :
    Procedure (Except Fault Unit × Installer) :=
  match installer with
  | .uninitialized => pure (.error .bootloaderUninitialized, .uninitialized)
  | .ready layout stage => do
    let (result, stage) ← match datagram.kind, stage with
      | .jumpToApp, stage => acceptJump g layout stage datagram.data
      | .firmwareMetadata, .idle => acceptManifest g layout datagram.data
      | .firmwareChunk, .receiving manifest written chunks =>
        acceptChunk g layout manifest written chunks datagram
      -- Out of turn, or of a kind that a node does not take.
      | _, stage => pure (.error .bootloaderInvalidState, stage)
    pure (result, .ready layout stage)

/-! ## The application -/

/-- Checks that there is an installed image worth running. -/
def checkInstalled : Installer → FlashTask Unit
  | .uninitialized => throw .bootloaderUninitialized
  | .ready layout _ => checkActive layout

/-- The record of the installed image, if the layout keeps one. -/
def installedImage : Installer → FlashTask (Option Manifest)
  | .uninitialized => pure none
  | .ready layout _ =>
    match layout.record? with
    | none => pure none
    | some offset => Record.load offset

/-- Jumps to the installed application, whatever the update is doing. Refused with the fault of
`checkInstalled` when there is nothing worth running. -/
def failSafeJump (installer : Installer) : Procedure Fault := do
  match ← (checkInstalled installer).run with
  | .error fault => pure fault
  | .ok () => jumpTo .application

end Installer

end Reflash
