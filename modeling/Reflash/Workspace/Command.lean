/-
  Reflash.Workspace.Command

  The commands of the workspace's task runner, and the programs it starts for
  them.
-/
import Reflash.Text.Quoted

namespace Reflash

namespace Workspace

/-! ## Commands -/

inductive BuildTarget where
  | bootloader
  | loader
  | all
  deriving DecidableEq, Inhabited

namespace BuildTarget

def name : BuildTarget → String
  | bootloader => "Bootloader"
  | loader => "LoaderCli"
  | all => "All"

def ofText (text : String) : Except String BuildTarget :=
  if text = "bootloader" then .ok bootloader
  else if text = "fota-loader-cli" then .ok loader
  else if text = "all" then .ok all
  else .error ("Unknown target: " ++ text)

end BuildTarget

inductive Command where
  | build (target : BuildTarget)
  | flash
  /-- Builds and runs; everything has no single program to run. -/
  | run (target : BuildTarget) (extra : List String)
  | attach
  | test
  | help
  deriving DecidableEq, Inhabited

namespace Command

def name : Command → String
  | build _ => "Build"
  | flash => "Flash"
  | run _ _ => "Run"
  | attach => "Attach"
  | test => "Test"
  | help => "Help"

/-- The command of an argument list. What stands behind a complete command is passed over. -/
def ofArguments : List String → Except String Command
  | [] => .error "No command provided"
  | word :: rest =>
    if word = "build" then
      match rest with
      | [] => .ok (build .all)
      | target :: _ => (BuildTarget.ofText target).map build
    else if word = "flash" then .ok flash
    else if word = "run" then
      match rest with
      | [] => .error "run command requires a target (bootloader or fota-loader-cli)"
      | target :: extra => do
        match ← BuildTarget.ofText target with
        | .all => .error "run command only supports bootloader or fota-loader-cli, not all"
        | target => .ok (run target extra)
    else if word = "attach" then .ok attach
    else if word = "test" then .ok test
    else if word = "help" then .ok help
    else .error ("Unknown command: " ++ word)

end Command

/-! ## Programs -/

/-- A program to start. -/
structure Invocation where
  program : String
  arguments : List String := []
  /-- The directory to start it in, if not the present one. -/
  directory? : Option String := none
  deriving DecidableEq, Inhabited

namespace Invocation

/-- The invocation as messages show it. -/
def describe (invocation : Invocation) : String :=
  (match invocation.directory? with
    | some directory => "cd " ++ Text.quoted directory ++ " && "
    | none => "") ++
  " ".intercalate ((invocation.program :: invocation.arguments).map Text.quoted)

end Invocation

def bootloaderPackage : String := "fota-bootloader"

def bootloaderDirectory : String := "fota-bootloader"

def loaderPackage : String := "fota-loader-cli"

/-- The processor family of the bootloader. -/
def embeddedTarget : String := "thumbv6m-none-eabi"

/-- Packages with tests that run on the host. -/
def testedPackages : List String := ["fota-core", "fota-host-core", "fota-loader-cli"]

/-- Where the built bootloader lies. -/
def bootloaderElf : String :=
  "/".intercalate [bootloaderDirectory, "target", embeddedTarget, "release", bootloaderPackage]

/-- Where its raw image goes. -/
def bootloaderBin : String :=
  bootloaderElf ++ ".bin"

/-- Stands for an argument that no program can be given: one that holds the zero character. -/
def unpassable : String := "<string-with-nul>"

/-- An argument as it is passed. -/
def passed (argument : String) : String :=
  if argument.toList.contains '\x00' then unpassable else argument

/-- The build tool, for the bootloader. It has settings of its own and is built where it lies. -/
def buildBootloader (subcommand : String) : Invocation where
  program := "cargo"
  arguments := [passed subcommand, "--release", "--target", embeddedTarget]
  directory? := some bootloaderDirectory

/-- The build tool, for a package of the host. -/
def buildHost (subcommand package : String) (extra : List String) : Invocation where
  program := "cargo"
  arguments := [passed subcommand, "--release", "--package", passed package] ++
    if extra.isEmpty then [] else "--" :: extra.map passed

def testHost : Invocation where
  program := "cargo"
  arguments := "test" :: testedPackages.flatMap fun package => ["--package", package]

def flashBootloader : Invocation where
  program := "cargo"
  arguments := ["flash", "--release", "--target", embeddedTarget, "--chip", "RP2040"]
  directory? := some bootloaderDirectory

def extractBin : Invocation where
  program := "arm-none-eabi-objcopy"
  arguments := ["-O", "binary", bootloaderElf, bootloaderBin]

def attachProbe : Invocation where
  program := "probe-rs"
  arguments := ["attach", "--chip", "RP2040", bootloaderElf]

end Workspace

end Reflash
