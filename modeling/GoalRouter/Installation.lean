import GoalRouter.Library.Text
import Mathlib.Data.List.Infix

namespace GoalRouter
open Library
set_option autoImplicit true

/-- `valid_text`: every byte is a printable ASCII character, and there is one. -/
def validText (s : Text) : Bool :=
  !s.isEmpty && s.all fun c => 0x20 ≤ c.val && c.val ≤ 0x7e

/-- `valid_path`. -/
def validPath (s : Text) : Bool :=
  validText s && decide (text "/" <+: s) &&
    !(decide (text "/../" <:+: s ++ text "/") || decide (text "/./" <:+: s ++ text "/") ||
      decide (text "//" <:+: s ++ text "/"))

/-- `paths_overlap`. -/
def pathsOverlap (a b : Text) : Bool :=
  a = b || decide (b ++ text "/" <+: a) || decide (a ++ text "/" <+: b)

/-- `${path%/*}`: what stands before the last slash. -/
def beforeSlash (path : Text) : Text :=
  match path.reverse.dropWhile (· != 0x2f) with
  | [] => path
  | _ :: rest => rest.reverse

/-- The parent that `install.sh` records, which is `/` for a directory right below it. -/
def recordedParent (path : Text) : Text :=
  if beforeSlash path = [] then text "/" else beforeSlash path

/-- The directories of an installation. -/
inductive Place where
  | bin
  | config
  | state
  | control
  deriving DecidableEq

/-- A file that the installer owns. -/
structure Target where
  place : Place
  name : Text
  deriving DecidableEq

def directorySentinel : Text := text ".goalrouter-owned-v1"

def sentinelContent : Text := text "goalrouter-owned-directory-v1"

def fieldNames : List Text :=
  [text "image-ref", text "image-digest", text "launcher-version", text "protocol-version",
    text "app-version", text "image-platform", text "source-revision", text "release-base",
    text "release-transport", text "image-repository", text "owned-home", text "owned-bin-dir",
    text "owned-config-dir", text "owned-state-dir", text "owned-codex-home",
    text "owned-launcher", text "owned-installer", text "owned-uninstaller",
    text "guard-config-root", text "guard-state-root", text "guard-config-parent",
    text "guard-state-parent", text "guard-bin-parent"]

/-- `ownership_names`, which are the `expected_manifest_names` of `uninstall.sh`. -/
def ownershipNames : List Text := text "install.json" :: fieldNames

def manifestName : Text := text "ownership.sha256"

/-- What `install.sh` was given and has found out by the time it writes the metadata. -/
structure Installation where
  home : Text
  binDir : Text
  configDir : Text
  stateDir : Text
  codexHome : Text
  configRoot : Text
  stateRoot : Text
  version : Text
  runtimeVersion : Text
  imageRepository : Text
  imageDigest : Text
  platform : Text
  sourceRevision : Text
  releaseBase : Text
  transport : Text

/-- `json_escape`. -/
def jsonEscape (s : Text) : Text :=
  s.flatMap fun c => if c = 0x5c ∨ c = 0x22 then [0x5c, c] else [c]

namespace Installation

variable (i : Installation)

def controlDir : Text := i.binDir ++ text "/.goalrouter-control"

def directory : Place → Text
  | .bin => i.binDir
  | .config => i.configDir
  | .state => i.stateDir
  | .control => i.controlDir

def path (t : Target) : Text := i.directory t.place ++ text "/" ++ t.name

/-- The values that `write_value` stages, by the name of their file. -/
def fields : List (Text × Text) :=
  [(text "image-ref", i.imageRepository), (text "image-digest", i.imageDigest),
    (text "launcher-version", i.version), (text "protocol-version", text "1"),
    (text "app-version", i.runtimeVersion), (text "image-platform", i.platform),
    (text "source-revision", i.sourceRevision), (text "release-base", i.releaseBase),
    (text "release-transport", i.transport), (text "image-repository", i.imageRepository),
    (text "owned-home", i.home), (text "owned-bin-dir", i.binDir),
    (text "owned-config-dir", i.configDir), (text "owned-state-dir", i.stateDir),
    (text "owned-codex-home", i.codexHome), (text "owned-launcher", i.binDir ++ text "/goalrouter"),
    (text "owned-installer", i.binDir ++ text "/goalrouter-install"),
    (text "owned-uninstaller", i.binDir ++ text "/goalrouter-uninstall"),
    (text "guard-config-root", i.configRoot), (text "guard-state-root", i.stateRoot),
    (text "guard-config-parent", recordedParent i.configDir),
    (text "guard-state-parent", recordedParent i.stateDir),
    (text "guard-bin-parent", recordedParent i.binDir)]

/-- `install.json`. -/
def installJson : Text :=
  text "\x7b\"manifest_version\":1,\"protocol_version\":1,\"version\":\"" ++ jsonEscape i.version ++
    text "\",\"launcher_version\":\"" ++ jsonEscape i.version ++
    text "\",\"image_reference\":\"" ++ jsonEscape i.imageRepository ++
    text "\",\"image_digest\":\"" ++ jsonEscape i.imageDigest ++
    text "\",\"image_platform\":\"" ++ jsonEscape i.platform ++
    text "\",\"source_revision\":\"" ++ jsonEscape i.sourceRevision ++
    text "\",\"owned\":\x7b\"launcher\":\"" ++ jsonEscape (i.binDir ++ text "/goalrouter") ++
    text "\",\"installer\":\"" ++ jsonEscape (i.binDir ++ text "/goalrouter-install") ++
    text "\",\"uninstaller\":\"" ++ jsonEscape (i.binDir ++ text "/goalrouter-uninstall") ++
    text "\",\"config_dir\":\"" ++ jsonEscape i.configDir ++
    text "\",\"state_dir\":\"" ++ jsonEscape i.stateDir ++ text "\"\x7d\x7d\n"

variable (sha256 : Text → Text)

/-- `ownership.sha256`: the lines of `sha256sum $ownership_names`. -/
def ownershipManifest : Text :=
  ((text "install.json", i.installJson) :: i.fields).flatMap fun f =>
    sha256 f.2 ++ text "  " ++ f.1 ++ text "\n"

/-- The staged metadata, in the order in which it is activated. -/
def metadata : List (Text × Text) :=
  i.fields ++
    [(manifestName, i.ownershipManifest sha256), (text "install.json", i.installJson)]

theorem metadata_names :
    (i.metadata sha256).map Prod.fst = fieldNames ++ [manifestName, text "install.json"] :=
  rfl

end Installation

def sampleInstallation : Installation where
  home := text "/home/user"
  binDir := text "/home/user/.local/bin"
  configDir := text "/home/user/.config/goalrouter"
  stateDir := text "/home/user/.local/state/goalrouter"
  codexHome := text "/home/user/.codex"
  configRoot := text "/home/user/.config"
  stateRoot := text "/home/user/.local/state"
  version := text "1.0.1"
  runtimeVersion := text "1.0.1"
  imageRepository := text "ghcr.io/vparla/goalrouter"
  imageDigest := text "sha256:0"
  platform := text "linux/amd64"
  sourceRevision := text "main"
  releaseBase := text "https://github.com/vparla/GoalRouter/releases/download/v1.0.1"
  transport := text "https"

end GoalRouter
