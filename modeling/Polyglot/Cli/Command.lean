import Polyglot.Cli.Arguments
import Polyglot.Cli.Report
import Polyglot.Project.Run

/-!
# Commands

What each command does, from the disk that it finds to the disk that it leaves and the texts that
it writes.

* `Outcome`: exit status, texts and disk.
* `Cli.check`, `Cli.release`, `Cli.init`.
* `Cli.overviewText`: what is shown when no command is named.
-/

namespace Polyglot.Cli

structure Outcome where
  status : ExitStatus
  stdout : String
  stderr : String
  disk : Disk

/-- Each line with a line feed behind it. -/
def unlines (lines : List String) : String :=
  String.join (lines.map (· ++ "\n"))

def overviewText : String := unlines [
  "Compiles TM translation files into typed TypeScript locale modules",
  "",
  "Usage: elzii [COMMAND]",
  "",
  "Commands:",
  "  check    Check translations for errors (parameters, missing and obsolete keys)",
  "  release  Check translations and generate the TypeScript sources",
  "  init     Initialize a new .elziirc.json configuration file",
  "  help     Print this message or the help of the given subcommand(s)",
  "",
  "Options:",
  "  -h, --help     Print help",
  "  -V, --version  Print version"]

/-- What a check finds. -/
def checkResult (given : Overrides) : Running CommandResult := do
  let p ← Project.start given
  let run ← p.runCheck
  return .finish none run.issues run.filesFound

/-- What a release finds and does. -/
def releaseResult (given : Overrides) : Running CommandResult := do
  let p ← Project.start given
  let run ← p.release (p.targetOptions given)
  let generation : Generation :=
    { targets := run.targets, emitted := run.emitted, allowed := run.check.reports.isSome }
  return .finish (some generation) run.check.issues run.check.filesFound

/-- Do the work of a command and tell about it. Notes are told only to those who want to know. -/
def tell (o : Options) (colors : Bool) (disk : Disk) (supply : Supply)
    (work : Running CommandResult) : Outcome :=
  let colors := colors && !o.noColor
  let (result, session) := work.run.run { disk, supply }
  let notes := if o.verbose then session.notes else []
  match result with
  | .ok r =>
    { status := r.exitStatus
      stdout := unlines (r.report colors)
      stderr := unlines (notes ++ r.warnings colors)
      disk := session.disk }
  | .error f =>
    { status := .error
      stdout := ""
      stderr := unlines (notes ++ failureReport colors toolName f)
      disk := session.disk }

def check (o : Options) (colors : Bool) (disk : Disk) : Outcome :=
  tell o colors disk {} (checkResult o.overrides)

def release (o : Options) (colors : Bool) (disk : Disk) (supply : Supply) : Outcome :=
  tell o colors disk supply (releaseResult o.overrides)

/-- Write a settings file with the defaults into the current directory, unless there is one. -/
def init (colors : Bool) (disk : Disk) : Outcome :=
  let path : Path := .ofText Settings.fileName
  if disk.pathExists path then
    { status := .failure
      stdout := ""
      stderr := unlines ["Error: " ++ Settings.fileName ++ " already exists"]
      disk }
  else
    match disk.writeText path (Settings.write {}) with
    | .ok disk =>
      { status := .success
        stdout := unlines [markedLine colors .green successMark ("Created " ++ Settings.fileName)]
        stderr := ""
        disk }
    | .error e =>
      { status := .error
        stdout := ""
        stderr := unlines (failureReport colors toolName (.writeSettings e))
        disk }

/-- Show a text and do nothing else. -/
def display (text : String) (disk : Disk) : Outcome where
  status := .success
  stdout := text
  stderr := ""
  disk

/-- Do what a command line asks for. -/
def run (i : Invocation) (colors : Bool) (disk : Disk) (supply : Supply) : Outcome :=
  match i with
  | .overview | .help => display overviewText disk
  | .version => display (unlines ["elzii " ++ toolVersion]) disk
  | .check o => check o colors disk
  | .release o => release o colors disk supply
  | .init => init colors disk

end Polyglot.Cli
