/-
  Reflash.Workspace.Runner

  Running a workspace command: which programs are started in what order, what is
  said meanwhile, and how it ends. A command stops at the first program that
  cannot be started or fails.
-/
import Reflash.Workspace.Command

namespace Reflash

namespace Workspace

/-! ## The surroundings -/

/-- The programs and files a command meets, and what it has done so far. -/
structure Bench where
  /-- The programs there are, with the exit codes of their next calls; further calls succeed. -/
  tools : List (String × List Nat) := []
  /-- Whether the bootloader's directory is there. -/
  hasDirectory : Bool := false
  /-- Whether the bootloader has been built, which it is below its directory. -/
  hasElf : Bool := false
  /-- What the extraction of the raw image says on its error output. -/
  objcopySays : String := ""
  /-- The programs started so far. -/
  calls : List Invocation := []
  /-- The lines printed so far. -/
  printed : List String := []
  deriving Inhabited

/-- A command under way, which may end in a complaint. -/
abbrev Job := ExceptT String (StateM Bench)

/-- Why a program could not be started. -/
def noSuchFile : String := "No such file or directory (os error 2)"

/-- Uses up the next exit code of a program. -/
def takeCode (program : String) : List (String × List Nat) → List (String × List Nat)
  | [] => []
  | (name, codes) :: rest =>
    if name = program then (name, codes.tail) :: rest
    else (name, codes) :: takeCode program rest

/-- Starts a program, and gives its exit code if it could be started. -/
def start (invocation : Invocation) : StateM Bench (Option Nat) := do
  let bench ← get
  match bench.tools.find? fun tool => tool.1 == invocation.program with
  | none => pure none
  | some (_, codes) =>
    -- A program cannot be started in a directory that is not there.
    if invocation.directory?.isSome && !bench.hasDirectory && !bench.hasElf then pure none
    else do
      set { bench with
        tools := takeCode invocation.program bench.tools
        calls := bench.calls ++ [invocation] }
      pure (some (codes.headD 0))

def print (line : String) : Job Unit :=
  modify fun bench => { bench with printed := bench.printed ++ [line] }

/-! ## The parts of a job -/

/-- Starts a program and waits for it to succeed. -/
def runProgram (invocation : Invocation) : Job Unit := do
  match ← start invocation with
  | none => throw ("Failed to run " ++ invocation.describe ++ ": " ++ noSuchFile)
  | some 0 => pure ()
  | some _ => throw (invocation.describe ++ " failed")

/-- Makes the raw image of the bootloader. -/
def generateBin : Job Unit := do
  if !(← get).hasElf then throw ("ELF binary not found at " ++ bootloaderElf)
  print ("Generating .bin file for " ++ bootloaderPackage ++ "...")
  match ← start extractBin with
  | none =>
    throw ("Failed to run arm-none-eabi-objcopy: " ++ noSuchFile ++
      ". Make sure arm-none-eabi-objcopy is installed.")
  | some 0 => print ("✓ Generated " ++ bootloaderBin)
  | some _ =>
    throw ("Failed to generate .bin file for " ++ bootloaderPackage ++ ":\n" ++
      (← get).objcopySays)

def buildBootloaderJob : Job Unit := do
  print "Building bootloader..."
  runProgram (buildBootloader "build")
  generateBin
  print "✓ Bootloader built successfully"

def buildLoaderJob : Job Unit := do
  print ("Building " ++ loaderPackage ++ "...")
  runProgram (buildHost "build" loaderPackage [])
  print ("✓ " ++ loaderPackage ++ " built successfully")

def runBootloaderJob : Job Unit := do
  print "Building and running bootloader..."
  runProgram (buildBootloader "run")
  print "✓ Bootloader run completed"

def runLoaderJob (extra : List String) : Job Unit := do
  print ("Building and running " ++ loaderPackage ++ "...")
  if extra.isEmpty then
    print ("Usage: cargo xtask run fota-loader-cli [--port <PORT>] [--node-id <ID>] " ++
      "<FIRMWARE.bin>")
    throw "no firmware file given"
  runProgram (buildHost "run" loaderPackage extra)
  print ("✓ " ++ loaderPackage ++ " run completed")

def attachJob : Job Unit := do
  print "Attaching to bootloader..."
  if !(← get).hasElf then
    throw ("ELF binary not found at " ++ bootloaderElf ++
      ". Build the project first using 'cargo xtask build bootloader'.")
  runProgram attachProbe
  print "✓ Bootloader attach completed"

def flashJob : Job Unit := do
  print "Building and flashing bootloader..."
  runProgram flashBootloader
  print "✓ Bootloader flashed successfully"

def testJob : Job Unit := do
  print "Running host tests..."
  runProgram testHost
  print "✓ Tests passed"

/-! ## Commands -/

/-- What is done for a command. Asking for help starts nothing. -/
def Command.job : Command → Job Unit
  | .build .bootloader => buildBootloaderJob
  | .build .loader => buildLoaderJob
  | .build .all => do
    buildBootloaderJob
    buildLoaderJob
  | .flash => flashJob
  | .run .bootloader _ => runBootloaderJob
  | .run .loader extra => runLoaderJob extra
  | .run .all _ => pure ()
  | .attach => attachJob
  | .test => testJob
  | .help => pure ()

def usage : String :=
  "Usage: cargo xtask <COMMAND> [TARGET]\n" ++
  "\n" ++
  "Commands:\n" ++
  "\tbuild       Build the specified target or all (generates the bootloader .bin)\n" ++
  "\tflash       Build and flash the bootloader\n" ++
  "\trun         Build and run the specified target (bootloader or fota-loader-cli)\n" ++
  "\tattach      Attach to the bootloader with probe-rs\n" ++
  "\ttest        Run the host side tests\n" ++
  "\thelp        Show this help message\n" ++
  "\n" ++
  "Targets:\n" ++
  "\tbootloader          The RP2040 bootloader\n" ++
  "\tfota-loader-cli     The host firmware loader\n" ++
  "\tall                 Both (default for build)\n" ++
  "\n" ++
  "Examples:\n" ++
  "\tcargo xtask build                                          # Build everything\n" ++
  "\tcargo xtask build bootloader                               " ++
    "# Build bootloader with .bin generation\n" ++
  "\tcargo xtask flash                                          # Flash the bootloader\n" ++
  "\tcargo xtask run bootloader                                 " ++
    "# Run bootloader with probe-rs\n" ++
  "\tcargo xtask run fota-loader-cli --port /dev/ttyACM0 app.bin  # Send app.bin to a node\n" ++
  "\tcargo xtask run fota-loader-cli --log-level DEBUG app.bin   " ++
    "# Run with DEBUG log level\n" ++
  "\tcargo xtask test                                           # Run host tests\n" ++
  "\tcargo xtask attach                                         " ++
    "# Attach to bootloader with probe-rs\n"

/-- What can be seen of a run. -/
structure Outcome where
  exitCode : Nat
  output : String
  errors : String
  calls : List Invocation

/-- The task runner, from start to end. The arguments do not include its own name. -/
def run (bench : Bench) (arguments : List String) : Outcome :=
  if arguments.isEmpty then { exitCode := 1, output := "", errors := usage, calls := [] }
  else match Command.ofArguments arguments with
    | .error complaint =>
      { exitCode := 1, output := "", calls := []
        errors := "Error parsing command: " ++ complaint ++ "\n" ++ usage }
    | .ok command =>
      let (result, bench) := command.job.run.run bench
      let output := .join (bench.printed.map (· ++ "\n"))
      let help := if command = .help then usage else ""
      match result with
      | .ok () => { exitCode := 0, output, errors := help, calls := bench.calls }
      | .error complaint =>
        { exitCode := 1, output, calls := bench.calls
          errors := help ++ "Error executing command: " ++ complaint ++ "\n" }

end Workspace

end Reflash
