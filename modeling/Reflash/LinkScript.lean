/-
  Reflash.LinkScript

  The memory map that the bootloader is linked with, and the build step that puts
  it where the linker looks for it and tells the build tool how to link.
-/
import Reflash.Loader.Files
import Reflash.Loader.Path

namespace Reflash

namespace LinkScript

/-- The file the memory map goes to. -/
def fileName : String := "memory.x"

/-- The memory map. -/
def text : String :=
  "/* Bootloader image. The application is linked at the active region, " ++
    "see src/layout.rs */\n" ++
  "MEMORY \x7b\n" ++
  "    BOOT2 : ORIGIN = 0x10000000, LENGTH = 0x100\n" ++
  "    FLASH : ORIGIN = 0x10000100, LENGTH = 64K - 0x100\n" ++
  "    RAM   : ORIGIN = 0x20000000, LENGTH = 264K\n" ++
  "\x7d\n"

/-- What the build tool is told. -/
def instructions (out : String) (defmt : Bool) : List String :=
  ["cargo:rustc-link-search=" ++ out,
    "cargo:rerun-if-changed=memory.x",
    "cargo:rustc-link-arg-bins=--nmagic",
    "cargo:rustc-link-arg-bins=-Tlink.x",
    "cargo:rustc-link-arg-bins=-Tlink-rp.x"] ++
  if defmt then ["cargo:rustc-link-arg-bins=-Tdefmt.x"] else []

/-- Where a build step finds itself. -/
structure Setting where
  /-- Where its output goes. -/
  out? : Option String := none
  /-- A directory made beforehand. -/
  made? : Option String := none
  /-- Whether logging over the debug probe is switched on. -/
  defmt : Bool := false

/-- Whether the memory map can be written below `out`. -/
def place (setting : Setting) (out : String) : Except Failure Unit :=
  let files := setting.made?.elim Files.bare Files.bare.makeDirectory
  (files.checkWritable (Path.join out fileName)).mapError FileError.failure

/-- What can be seen of the build step. -/
structure Outcome where
  output : String
  ending : Except Failure Unit
  /-- The memory map written, if it was. -/
  written : Option String

/-- The build step. -/
def run (setting : Setting) : Outcome :=
  match setting.out? with
  | none => { output := "", ending := .error (.remark "OUT_DIR not set"), written := none }
  | some out =>
    match place setting out with
    | .error failure => { output := "", ending := .error failure, written := none }
    | .ok () =>
      { output := .join ((instructions out setting.defmt).map (· ++ "\n"))
        ending := .ok (), written := some text }

end LinkScript

end Reflash
