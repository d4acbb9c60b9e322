/-
  Reflash.Board

  The flash of an RP2040 board with 2 MiB, as offsets from its start:

      0x000000  bootloader             64 KiB
      0x010000  image record            4 KiB
      0x011000  active application    960 KiB
      0x101000  staging               960 KiB
      0x1F1000  unused
-/
import Reflash.Install.Installer

namespace Reflash

namespace Board

/-- Bytes of flash on the board. -/
def flashSize : Nat := 0x200000

/-- The board's flash part. -/
def geometry : Geometry where
  writeSize := 1
  eraseSize := 0x1000
  capacity := flashSize

def recordOffset : Nat := 0x10000

def activeOffset : Nat := 0x11000

def stagingOffset : Nat := 0x101000

def regionSize : Nat := 0xF0000

/-- The board takes datagrams addressed to any node. -/
def nodeId : Option UInt8 := none

def layout : Layout where
  staging := stagingOffset
  active := activeOffset
  regionSize := regionSize
  record? := some recordOffset

theorem layout_usable : layout.Usable geometry := by decide

end Board

end Reflash
