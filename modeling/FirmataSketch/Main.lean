import FirmataSketch.Command.Sites
import Std.Time.Zoned.Database

/-! The program: takes in the part of the disk that a command line looks at, runs the command line
on it, and carries out its report. -/

open FirmataSketch
open FirmataSketch.Disk (Node Place PathName)

namespace FirmataSketch.Command

def placeText (here : Place) : String := "/" ++ String.intercalate "/" here

/-- The entries of a folder. Its folders are taken in without what is in them, and only feature
files are read. -/
def entriesAt (here : Place) : IO (List (String × Node)) := do
  let folder := (← IO.currentDir) / placeText here
  (← folder.readDir).toList.mapM fun e => do
    if ← e.path.isDir then return (e.fileName, .folder [])
    else if Catalog.isFeatureFile e.fileName then
      return (e.fileName, .file (← IO.FS.readBinFile e.path))
    else return (e.fileName, .file .empty)

def addNode (root : Node) (here : Place) (n : Node) : Node :=
  if (root.find? here).isSome then root else root.put here n

/-- Takes in the folders on the way to a site, and the site. -/
def takeIn (root : Node) (here : Place) (parts : List String) : IO Node := do
  let path := (← IO.currentDir) / placeText here
  if ← path.isDir then
    let root := addNode root here (.folder [])
    match parts with
    | [] => return (← entriesAt here).foldl (fun root e => addNode root (here ++ [e.1]) e.2) root
    | ".." :: parts => takeIn root here.dropLast parts
    | part :: parts => takeIn root (here ++ [part]) parts
  else if ← path.pathExists then return root.put here (.file (← IO.FS.readBinFile path))
  else return root

def currentClock : IO Clock := do
  let now ← Std.Time.Timestamp.now
  let zone := (← Std.Time.Database.defaultGetLocalZoneRules).timezoneAt now
  return ⟨.moment (.ofEpochSeconds now.toSecondsSinceUnixEpoch.val),
    ⟨zone.offset.second.val, zone.abbreviation⟩⟩

def surroundings (args : List String) : IO Surroundings := do
  let place (path : String) : Place := (PathName.ofText path).parts
  let s : Surroundings :=
    { disk := ⟨.folder [], place (← IO.currentDir).toString⟩
      clock := ← currentClock
      home := PathName.ofText (← IO.appDir).toString
      output := ← IO.getEnv Settings.outputVariable }
  let root ← (sites s args).foldlM (fun root parts => takeIn root [] parts) s.disk.root
  return { s with disk := { s.disk with root } }

def carryOut (change : Place × Node) : IO Unit :=
  match change.2 with
  | .folder _ => IO.FS.createDir (placeText change.1)
  | .file bytes => IO.FS.writeBinFile (placeText change.1) bytes

/-- Carries out a report on what was there before. No server is built in. -/
def Report.carryOut (before : Disk) (r : Report) : IO UInt32 := do
  (before.root.changes r.disk.root).forM Command.carryOut
  IO.print r.stdout
  IO.eprint r.stderr
  match r.served, r.ending with
  | some w, _ =>
    IO.eprintln ("Error: cannot listen on " ++ w.host.display ++ ":" ++ w.port.display)
    return 1
  | none, .exit status => return UInt32.ofNat status
  | none, .failure f =>
    IO.eprintln f.message
    return 1

end FirmataSketch.Command

def main (args : List String) : IO UInt32 := do
  let s ← Command.surroundings args
  (Command.run s args).carryOut s.disk
