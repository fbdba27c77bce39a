import GoalRouter.Installation
import GoalRouter.Library.Program
import GoalRouter.Library.UndoJournal

namespace GoalRouter
open Library
set_option autoImplicit true

/-- A regular file. -/
structure OwnedFile where
  content : Text
  mode : Nat
  deriving DecidableEq

/-- What stands under a name. A symbolic link resolves to something or dangles. -/
inductive Entry where
  | file (f : OwnedFile)
  | directory
  | link (resolves : Bool)
  deriving DecidableEq

/-- `[ -e path ]`. -/
def entryExists : Option Entry → Bool
  | none => false
  | some (.link resolves) => resolves
  | some _ => true

/-- `[ -f path ] && [ ! -L path ]`. -/
def isRegular : Option Entry → Bool
  | some (.file _) => true
  | _ => false

/-- `[ -L path ]`. -/
def isLink : Option Entry → Bool
  | some (.link _) => true
  | _ => false

inductive InstallPath where
  | target (t : Target)
  /-- `$target.goalrouter-backup.$$` -/
  | backup (t : Target)
  /-- `$target.goalrouter-tmp.XXXXXXXX` -/
  | temp (t : Target) (suffix : Nat)
  deriving DecidableEq

structure InstallWorld where
  /-- The owned targets, their backups, and `rollback_file`. -/
  files : UndoJournal Target Entry
  /-- `transaction_active` -/
  active : Bool
  temps : Target → Nat → Option Entry
  /-- `rollback_temp_file` -/
  tempPaths : List (Target × Nat)

namespace InstallWorld

def entry (w : InstallWorld) : InstallPath → Option Entry
  | .target t => w.files.current t
  | .backup t => w.files.saved t
  | .temp t suffix => w.temps t suffix

def put (w : InstallWorld) (p : InstallPath) (e : Option Entry) : InstallWorld :=
  match p with
  | .target t => { w with files := w.files.put t e }
  | .backup t => { w with files := w.files.keep t e }
  | .temp t suffix =>
    { w with temps := Function.update w.temps t (Function.update (w.temps t) suffix e) }

/-- `rm -f`. -/
def remove (w : InstallWorld) (p : InstallPath) : InstallWorld :=
  match p with
  | .backup t => { w with files := w.files.discard t }
  | _ => w.put p none

end InstallWorld

/-- The commands of `install.sh` from the start of the transaction on, and of its cleanup. -/
inductive InstallCall where
  /-- `mkdir -p` -/
  | makeDirectories
  /-- One of the tests of an owned directory: it exists, its owner, its mode. -/
  | checkDirectory (place : Place)
  | mktemp (t : Target)
  /-- `printf ... >>"$rollback_temp_file"` -/
  | recordTemp (t : Target) (suffix : Nat)
  /-- `[ -e ]`, `[ -f ]`, `[ -L ]` -/
  | look (p : InstallPath)
  | copy (source : Text) (p : InstallPath)
  | chmod (mode : Nat) (p : InstallPath)
  /-- `printf ... >>"$rollback_file"` -/
  | record (kind : UndoKind) (t : Target)
  /-- `mv` -/
  | rename (p q : InstallPath)
  /-- `rm -f` -/
  | remove (p : InstallPath)
  /-- The loop over `rollback_temp_file` -/
  | readTemps
  /-- A loop over `rollback_file` -/
  | readJournal
  | doctor
  /-- `transaction_active=0` -/
  | deactivate
  | isActive
  /-- `rmdir` of the owned directories -/
  | removeDirectories
  /-- `printf` to the terminal, `rm -rf "$work_dir"` -/
  | other
  deriving DecidableEq

abbrev InstallVal : InstallCall → Type
  | .checkDirectory _ => Bool
  | .mktemp _ => Nat
  | .look _ => Option Entry
  | .readTemps => List (Target × Nat)
  | .readJournal => List (UndoKind × Target)
  | .isActive => Bool
  | _ => Unit

abbrev InstallProgram (α : Type) := Prog InstallVal Text α

def command (c : InstallCall) : InstallProgram (InstallVal c) := Prog.invoke c

/-- What a command comes to when it does not fail, unless that is open. -/
def InstallCall.perform (w : InstallWorld) :
    (c : InstallCall) → Option (InstallVal c × InstallWorld)
  | .checkDirectory _ | .mktemp _ | .removeDirectories => none
  | .recordTemp t suffix => some ((), { w with tempPaths := w.tempPaths ++ [(t, suffix)] })
  | .look p => some (w.entry p, w)
  | .copy source p => match w.entry p with
    | some (.file f) => some ((), w.put p (some (.file { f with content := source })))
    | _ => none
  | .chmod mode p => match w.entry p with
    | some (.file f) => some ((), w.put p (some (.file { f with mode })))
    | _ => none
  | .record kind t => some ((), { w with files := w.files.record kind t })
  | .rename p q => match w.entry p with
    | some e => some ((), (w.put p none).put q (some e))
    | none => none
  | .remove p => some ((), w.remove p)
  | .readTemps => some (w.tempPaths, w)
  | .readJournal => some (w.files.journal, w)
  | .deactivate => some ((), { w with active := false })
  | .isActive => some (w.active, w)
  | .makeDirectories | .doctor | .other => some ((), w)

/-- How commands answer. Each of them may fail; a copy that fails may have come half way. -/
inductive InstallNext : Prog.Answers InstallVal Text InstallWorld where
  | performed {v : InstallVal c} (h : c.perform w = some (v, w')) : InstallNext w c (.ok v) w'
  | checked : InstallNext w (.checkDirectory place) (.ok safe) w
  | created (h : w.temps t suffix = none) : InstallNext w (.mktemp t) (.ok suffix)
      (w.put (.temp t suffix) (some (.file ⟨[], 0o600⟩)))
  /-- `rmdir` fails unless the directories are empty. -/
  | emptied (h : ∀ p, w.entry p = none) : InstallNext w .removeDirectories (.ok ()) w
  | failed : InstallNext w c (.error []) w
  | miscopied : InstallNext w (.copy source p) (.error []) (w.put p (some (.file ⟨part, mode⟩)))

/-- The commands of the cleanup that it can do without: the `rm -f` of a temporary file, the `rm -f`
of a target that the `mv` of its backup replaces, `rmdir` and `rm -rf "$work_dir"`. -/
def InstallCall.dispensable (w : InstallWorld) : InstallCall → Bool
  | .remove (.temp _ _) | .removeDirectories | .other => true
  | .remove (.target t) => entryExists (w.entry (.backup t))
  | _ => false

/-- How the commands of the cleanup answer where only those fail that it can do without. -/
def Mending (w : InstallWorld) (c : InstallCall) (r : Except Text (InstallVal c))
    (w' : InstallWorld) : Prop :=
  InstallNext w c r w' ∧ (c.dispensable w = false → ∃ v, r = .ok v)

/-- `[ ... ] || fail message`. -/
def require (condition : Bool) (message : Text) : InstallProgram Unit :=
  if condition then .pure () else .throw message

/-- A file to be put in place, with its mode. -/
structure Replacement where
  source : Text
  target : Target
  mode : Nat

def Replacement.entry (r : Replacement) : Entry := .file ⟨r.source, r.mode⟩

section Scripts

variable (i : Installation)

/-- A message of `replace_owned` about a target. -/
def about (message : Text) (t : Target) : Text := message ++ text ": " ++ i.path t

/-- `replace_owned` up to the complete temporary file. -/
def stageReplacement (r : Replacement) : InstallProgram Nat := do
  let suffix : Nat ← (command (.mktemp r.target)).orThrow
    (about i (text "cannot create exclusive replacement") r.target)
  command (.recordTemp r.target suffix)
  let temp : Option Entry ← command (.look (.temp r.target suffix))
  require (isRegular temp) (about i (text "unsafe temporary replacement") r.target)
  let backup : Option Entry ← command (.look (.backup r.target))
  require (!entryExists backup && !isLink backup)
    (about i (text "backup replacement collision") r.target)
  let target : Option Entry ← command (.look (.target r.target))
  require (!isLink target) (about i (text "owned target became a symbolic link") r.target)
  (command (.copy r.source (.temp r.target suffix))).orThrow
    (about i (text "cannot stage replacement") r.target)
  (command (.chmod r.mode (.temp r.target suffix))).orThrow
    (about i (text "cannot set replacement mode") r.target)
  return suffix

/-- The target is moved aside, if there is one. -/
def backUpTarget (t : Target) : InstallProgram Unit := do
  let target : Option Entry ← command (.look (.target t))
  if entryExists target then
    require (isRegular target) (about i (text "owned target is not a regular file") t)
    command (.record .existing t)
    (command (.rename (.target t) (.backup t))).orThrow
      (about i (text "cannot back up owned target") t)
  else
    command (.record .new t)

/-- `replace_owned`. -/
def replaceOwned (r : Replacement) : InstallProgram Unit := do
  let suffix ← stageReplacement i r
  backUpTarget i r.target
  (command (.rename (.temp r.target suffix) (.target r.target))).orThrow
    (about i (text "cannot activate replacement") r.target)

def replaceAll : List Replacement → InstallProgram Unit
  | [] => .pure ()
  | r :: rs => do
    replaceOwned i r
    replaceAll rs

def checkOwnedDirectory (place : Place) : InstallProgram Unit := do
  let there : Bool ← command (.checkDirectory place)
  require there (text "owned installation directory is missing or unsafe")
  let owned : Bool ← command (.checkDirectory place)
  require owned (text "owned installation directory has an unexpected owner")
  let closed : Bool ← command (.checkDirectory place)
  require closed (text "owned installation directory cannot be group/world writable")

/-- `mkdir -p` and the loop over the owned directories. -/
def prepareDirectories : InstallProgram Unit := do
  command .makeDirectories
  checkOwnedDirectory .bin
  checkOwnedDirectory .config
  checkOwnedDirectory .state
  checkOwnedDirectory .control

/-- The loop that removes the backups. -/
def commitAll : List (UndoKind × Target) → InstallProgram Unit
  | [] => .pure ()
  | (_, t) :: entries => do
    command (.remove (.backup t))
    commitAll entries

/-- What the release brings: the three scripts and the template of the configuration. -/
structure Release where
  launcher : Text
  installer : Text
  uninstaller : Text
  configTemplate : Text
  sha256 : Text → Text

variable (release : Release)

def configTarget : Target := ⟨.config, text "task-models.yaml"⟩

def firstReplacements : List Replacement :=
  [⟨sentinelContent, ⟨.config, directorySentinel⟩, 0o600⟩,
    ⟨sentinelContent, ⟨.state, directorySentinel⟩, 0o600⟩,
    ⟨release.launcher, ⟨.bin, text "goalrouter"⟩, 0o755⟩,
    ⟨release.installer, ⟨.bin, text "goalrouter-install"⟩, 0o755⟩,
    ⟨release.uninstaller, ⟨.bin, text "goalrouter-uninstall"⟩, 0o755⟩]

def configReplacement : Replacement := ⟨release.configTemplate, configTarget, 0o600⟩

def metadataReplacements : List Replacement :=
  (i.metadata release.sha256).flatMap fun f =>
    [⟨f.2, ⟨.control, f.1⟩, 0o600⟩, ⟨f.2, ⟨.state, f.1⟩, 0o600⟩]

/-- The replacements of a run, where `config` stands under the name of the configuration. -/
def replacements (resetConfig : Bool) (config : Option Entry) : List Replacement :=
  firstReplacements release ++
    (if !entryExists config || resetConfig then [configReplacement release] else []) ++
    metadataReplacements i release

def replaceConfig (resetConfig : Bool) : InstallProgram Unit := do
  let config : Option Entry ← command (.look (.target configTarget))
  if !entryExists config || resetConfig then
    replaceOwned i (configReplacement release)

def runDoctor (skipDoctor : Bool) : InstallProgram Unit :=
  if skipDoctor then .pure ()
  else (command .doctor).orThrow (text "installed doctor failed; installation rolled back")

/-- `install.sh` after `transaction_active=1`. -/
def installTransaction (resetConfig skipDoctor : Bool) : InstallProgram Unit := do
  prepareDirectories
  replaceAll i (firstReplacements release)
  replaceConfig i release resetConfig
  replaceAll i (metadataReplacements i release)
  runDoctor skipDoctor
  let entries : List (UndoKind × Target) ← command .readJournal
  commitAll entries
  command .deactivate
  command .other

/-- `command 2>/dev/null || :`. -/
def regardless (c : InstallCall) : InstallProgram Unit := do
  let _ ← (command c).attempt
  return

def removeTemps : List (Target × Nat) → InstallProgram Unit
  | [] => .pure ()
  | (t, suffix) :: temps => do
    regardless (.remove (.temp t suffix))
    removeTemps temps

/-- A turn of the loop of `rollback_transaction` over `rollback_file`. -/
def restore (kind : UndoKind) (t : Target) : InstallProgram Unit := do
  let backup : Option Entry ← command (.look (.backup t))
  if kind = .existing ∧ entryExists backup = true then
    regardless (.remove (.target t))
    regardless (.rename (.backup t) (.target t))
  else if kind = .new then
    regardless (.remove (.target t))

def restoreAll : List (UndoKind × Target) → InstallProgram Unit
  | [] => .pure ()
  | (kind, t) :: entries => do
    restore kind t
    restoreAll entries

def rollbackTransaction : InstallProgram Unit := do
  let temps : List (Target × Nat) ← command .readTemps
  removeTemps temps
  let entries : List (UndoKind × Target) ← command .readJournal
  restoreAll entries
  regardless .removeDirectories

/-- `cleanup`, the trap on exit. -/
def cleanup : InstallProgram Unit := do
  let active : Bool ← command .isActive
  if active then
    rollbackTransaction
  command .other

end Scripts

/-- Where `transaction_active=1` leaves the run, with what it finds under the owned names. -/
def InstallWorld.begin (targets backups : Target → Option Entry)
    (temps : Target → Nat → Option Entry) : InstallWorld :=
  ⟨.start targets backups, true, temps, []⟩

end GoalRouter
