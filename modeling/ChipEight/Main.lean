import Std.Time
import ChipEight.CommandLine.Emulate
import ChipEight.Picture.Png
/-!
The emulator as a program: the files that the options name are read, the run is computed, and what
it shows and leaves is written out.
-/

namespace ChipEight.CommandLine

/-- The paths that end before each slash of a path, and the path itself. -/
def stages (path : String) : List String :=
  let parts := path.splitOn "/"
  (List.range parts.length).map fun n => "/".intercalate (parts.take (n + 1))

/-- Takes what is at a path into the files, if anything is. -/
def take (fs : Files) (path : String) : IO Files := do
  try
    if ← (← IO.FS.realPath path).isDir then return (fs.makeDirectories path).toOption.getD fs
    else
      let content ← IO.FS.readBinFile path
      return (fs.write path content).toOption.getD fs
  catch _ => return fs

/-- The files that matter for paths: what is there, and the directories on the way. -/
def gather (paths : List String) : IO Files := (paths.flatMap stages).foldlM take {}

/-- The paths that a run reads or writes. -/
def pathsOf (o : Options) : List String :=
  [some o.rom, o.config, o.trace, o.screenshot, o.plot].filterMap id

/-- Writes the file at a path out if the run changed it. -/
def putOut (before after : Files) (path : String) : IO Unit := do
  match after.entry path with
  | .ok (.file content) =>
    let same := match before.read path with
      | .ok old => old == content
      | .error _ => false
    unless same do
      makeDirectory path
      IO.FS.writeBinFile path content
  | .ok (.image picture) =>
    makeDirectory path
    IO.FS.writeBinFile path (ByteArray.mk picture.png.toArray)
  | _ => return
where
  makeDirectory (path : String) : IO Unit := do
    let directory := Files.directoryOf path
    unless directory.isEmpty do IO.FS.createDirAll directory

def now : IO String := return (← Std.Time.PlainDateTime.now).format "uuuu-MM-dd HH:mm:ss,SSS"

/-- Runs the emulator among the host's files; gives the exit status. -/
def runEmulator (arguments : List String) : IO UInt32 := do
  let named := match Options.read arguments with
    | .ok o => pathsOf o
    | .error _ => []
  let config ← gather named
  -- the configuration may name a log file
  let logFile := match Options.read arguments with
    | .ok { config := some path, .. } =>
      match (Config.default.load config path).1.get "logging.file" .null with
      | .text file => [file]
      | _ => []
    | _ => []
  let files ← gather (named ++ logFile)
  let begin ← IO.monoMsNow
  let entropy ← IO.getRandomBytes 16
  let seed : Int := entropy.toList.foldl (fun n b => 256 * n + b.toNat) 0
  let outcome := emulatorOn (.standard (.seeded (.ofSeed seed))) arguments files
  let ending := outcome.ending
  let status : UInt32 := match ending with
    | .exit n => UInt32.ofNat n
    | .failure _ => 1
  let spent := (← IO.monoMsNow) - begin
  let seconds := Number.fixedText 3 (Float.ofNat spent / 1000.0)
  let times : Times := ⟨← now, seconds⟩
  (← IO.getStdout).putStr (outcome.output times)
  (← IO.getStderr).putStr outcome.errors
  let after := outcome.files times
  let pictures := named.filterMap fun p => (picturePath p).toOption
  (named ++ logFile ++ pictures).forM (putOut files after)
  if let .failure e := ending then
    IO.eprintln ("failure: " ++ (e.message?).getD "the run cannot go on")
  return status

end ChipEight.CommandLine

def main (arguments : List String) : IO UInt32 := ChipEight.CommandLine.runEmulator arguments
