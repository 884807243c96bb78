import OpenNode.Lib.Globs
import OpenNode.Lib.PosixPaths

namespace OpenNode.NginxCompile

open PosixPaths Globs

abbrev Bytes := List UInt8

def maxConfigBytes : Nat := 2 * 1024 * 1024

/-- A directive of a parsed file, with or without a block. -/
inductive Directive where
  | simple (name : String) (args : List String)
  | block (name : String) (args : List String) (items : List Directive)

namespace Directive

def name : Directive → String
  | simple name _ => name
  | block name _ _ => name

def args : Directive → List String
  | simple _ args => args
  | block _ args _ => args

end Directive

mutual

/-- `walk`: every directive at every level. -/
def walk : List Directive → List Directive
  | [] => []
  | item :: rest => walkOne item ++ walk rest

def walkOne : Directive → List Directive
  | .simple name args => [.simple name args]
  | .block name args items => .block name args items :: walk items

end

inductive Entry where
  | file (data : Bytes) (links : Nat)
  | directory
  | symlink
  | other
deriving DecidableEq

/-- What the Agent finds on its host: the entries of the file system, `os.walk` of its
directory, and the parser and the printer of Nginx files. -/
structure System where
  entry : Path → Option Entry
  walked : List (Path × List String × List String)
  parsed : Bytes → Option (List Directive)
  render : List Directive → Bytes

/-- `NginxRuntime` with its directories; those of the settings are absolute. -/
structure NginxRuntime where
  root : Path
  certs : Path
  state : Path
  modules : List Path
  siteRoots : List Path
  absolute : ∀ path ∈ state :: siteRoots, path.anchor ≠ .relative

def configName : Path := Path.parse "nginx.conf"
def htmlName : Path := Path.parse "html"
def checkName : Path := Path.parse ".check"
def pidName : Path := Path.parse "nginx.pid"
def confSuffix : List Char := ".conf".toList
def mimeTypes : List Char := "mime.types".toList
def certSuffixes : List (List Char) := [".pem".toList, ".key".toList, ".crt".toList, ".cer".toList]
def tempPath : List Char := "_temp_path".toList

def NginxRuntime.main (x : NginxRuntime) : Path := x.root.join configName

def NginxRuntime.html (x : NginxRuntime) : Path := x.state.join htmlName

def guardedPath (sys : System) (root value : Path) : Except String Path :=
  let path := root.join value
  if parent ∈ path.parts ∨ ¬ Path.isRelativeTo root path ∨ path = root then
    .error "Path must stay inside the configured directory"
  else if path.upward.any fun item => sys.entry item = some .symlink then .error "Symlink paths are not allowed"
  else
    match sys.entry path with
    | none => .ok path
    | some (.file _ links) => if links ≠ 1 then .error "Hard-linked files are not allowed" else .ok path
    | some _ => .error "Expected a regular file"

def readPrivate (sys : System) (path : Path) : Except String Bytes :=
  match sys.entry path with
  | some (.file data links) =>
    if links ≠ 1 then .error "Expected one regular non-hard-linked file"
    else if maxConfigBytes < data.length then .error "Host file exceeds 2 MiB"
    else .ok data
  | none => .error "No such file or directory"
  | some _ => .error "Expected one regular non-hard-linked file"

namespace NginxRuntime

variable (x : NginxRuntime) (sys : System)

def configPath (value : Path) : Except String Path := do
  let path ← guardedPath sys x.root value
  if path.suffix ≠ confSuffix ∧ path.name ≠ mimeTypes then
    .error "Only Nginx .conf and mime.types files may be accessed"
  else .ok path

def certPath (value : String) : Except String Path :=
  if '$' ∈ value.toList then .error "Dynamic certificate paths are not allowed"
  else do
    let path ← guardedPath sys x.certs (Path.parse value)
    if path.suffix ∉ certSuffixes then .error "Certificate paths must end in .pem, .key, .crt or .cer" else .ok path

def sitePath (value : String) : Except String Path :=
  if '$' ∈ value.toList then .error "Dynamic static content paths are not allowed"
  else
    let path := Path.parse value
    match (x.html :: x.siteRoots).find? fun root => path = root ∨ Path.isRelativeTo root path with
    | none => .error "Static content must stay inside a configured nginx_site_roots directory"
    | some root => do
      let _ ← guardedPath sys root.above (path.join checkName)
      .ok path

/-- A name in a walked directory. -/
def addFile (directory : Path) (found : List Path) (name : String) : Except String (List Path) :=
  if confSuffix.isSuffixOf name.toList || name.toList = mimeTypes then do
    let path ← x.configPath sys (directory.join (Path.parse name))
    if 128 < found.length + 1 then .error "Too many Nginx configuration files" else .ok (found ++ [path])
  else .ok found

def addDirectory (found : List Path) (entry : Path × List String × List String) : Except String (List Path) :=
  if entry.2.1.any fun name => sys.entry (entry.1.join (Path.parse name)) = some .symlink then
    .error "Symlink config directories are not allowed"
  else entry.2.2.foldlM (x.addFile sys entry.1) found

def before (a b : Path) : Prop := a.parts ≤ b.parts

instance : DecidableRel before := fun a b => inferInstanceAs (Decidable (a.parts ≤ b.parts))

def files : Except String (List Path) :=
  match sys.entry x.root with
  | none => .ok []
  | some _ => do
    let found ← sys.walked.foldlM (x.addDirectory sys) []
    .ok (found.insertionSort before)

def parse (path : Path) : Except String (List Directive) := do
  let _ ← x.configPath sys path
  let data ← readPrivate sys path
  match sys.parsed data with
  | some tree => .ok tree
  | none => .error ("Invalid Nginx syntax in " ++ Path.str { path with
      anchor := .relative
      parts := path.parts.drop x.root.parts.length
      names := fun part member => path.names part (List.mem_of_mem_drop member) })

def controlled : List String := ["daemon", "master_process", "pid", "user", "load_module"]

/-- The arguments of a directive that is kept. -/
def arguments (name : String) (args : List String) : Except String (List String) :=
  if name = "error_log" then .ok ["stderr", "notice"]
  else
    match args with
    | [] => .ok []
    | first :: rest =>
      if name = "access_log" ∧ first ≠ "off" then .ok ("/dev/stdout" :: rest)
      else if name = "ssl_certificate" ∨ name = "ssl_certificate_key" then do
        let path ← x.certPath sys first
        .ok (path.str :: rest)
      else if name = "root" ∨ name = "alias" then do
        let path ← x.sitePath sys first
        .ok (path.str :: rest)
      else if tempPath.isSuffixOf name.toList then .ok ((x.state.join (Path.parse name)).str :: rest)
      else .ok (first :: rest)

/-- The arguments of a directive that the Agent does not control. -/
def keep (name : String) (args : List String) : Except String (List String) :=
  if name ∈ controlled then .error (name ++ " is controlled by the Agent") else x.arguments sys name args

mutual

/-- `nodes`, with the expansion of the arguments of an include; the number is the budget
that is spent. -/
def nodes (includes : List String → Nat → Except String (List Directive × Nat)) :
    List Directive → Nat → Except String (List Directive × Nat)
  | [], budget => .ok ([], budget)
  | item :: rest, budget => do
    let (front, budget) ← node includes item budget
    let (back, budget) ← nodes includes rest budget
    .ok (front ++ back, budget)

def node (includes : List String → Nat → Except String (List Directive × Nat)) :
    Directive → Nat → Except String (List Directive × Nat)
  | .simple name args, budget =>
    if name = "include" then includes args budget
    else do
      let args ← x.keep sys name args
      .ok ([.simple name args], budget)
  | .block name args items, budget =>
    if name = "include" then includes args budget
    else do
      let args ← x.keep sys name args
      let (items, budget) ← nodes includes items budget
      .ok ([.block name args items], budget)

end

/-- The files of a list, one after the other. -/
def expandAll (expandOne : Path → Nat → Except String (List Directive × Nat)) :
    List Path → Nat → Except String (List Directive × Nat)
  | [], budget => .ok ([], budget)
  | path :: rest, budget => do
    let (front, budget) ← expandOne path budget
    let (back, budget) ← expandAll expandOne rest budget
    .ok (front ++ back, budget)

/-- The files that a pattern names. -/
def matching (available : List Path) (pattern : Path) : List Path :=
  available.filter fun path => fnmatchcase path.str pattern.str

/-- An include, with the expansion of one file. -/
def includes (available : List Path) (expandOne : Path → Nat → Except String (List Directive × Nat))
    (args : List String)
    (budget : Nat) : Except String (List Directive × Nat) :=
  match args with
  | [value] => do
    let pattern ← x.configPath sys (Path.parse value)
    if matching available pattern = [] ∧
      hasWildcard pattern.str = false then .error "Included configuration does not exist"
    else expandAll expandOne (matching available pattern) budget
  | _ => .error "An include requires exactly one path"

/-- `expand`: the number is what is left of the 32 levels. -/
def expand (trees : List (Path × List Directive)) :
    Nat → List Path → Path → Nat → Except String (List Directive × Nat)
  | 0, _, _, _ => .error "Recursive Nginx includes are not allowed"
  | depth + 1, stack, path, budget =>
    if path ∈ stack then .error "Recursive Nginx includes are not allowed"
    else do
      let data ← readPrivate sys path
      if maxConfigBytes < budget + data.length then .error "Expanded Nginx configuration exceeds 2 MiB"
      else
        x.nodes sys (x.includes sys (trees.map Prod.fst) (expand trees depth (stack ++ [path])))
          ((trees.lookup path).getD []) (budget + data.length)

/-- The directives that the Agent puts before those of the files. -/
def header (result : List Directive) : List Directive :=
  x.modules.map (fun path => .simple "load_module" [path.str]) ++
  [.simple "pid" [(x.state.join pidName).str]] ++
  (if result.any fun item => item.name = "worker_processes" then [] else [.simple "worker_processes" ["1"]]) ++
  (if result.any fun item => item.name = "error_log" then [] else [.simple "error_log" ["stderr", "notice"]])

def tempNames : List String :=
  ["client_body_temp_path", "proxy_temp_path", "fastcgi_temp_path", "uwsgi_temp_path", "scgi_temp_path"]

/-- The temporary paths that a block does not set. -/
def missingTempPaths (items : List Directive) : List Directive :=
  (tempNames.filter fun name => !items.any fun item => item.name = name).map fun name =>
    .simple name [(x.state.join (Path.parse name)).str]

def withTempPaths : Directive → Except String Directive
  | .simple name args => if name = "http" then .error "block" else .ok (.simple name args)
  | .block name args items =>
    .ok (.block name args (if name = "http" then items ++ x.missingTempPaths items else items))

/-- The files of the directory with their trees. -/
def parsedFiles : Except String (List (Path × List Directive)) := do
  let available ← x.files sys
  available.mapM fun path => do
    let tree ← x.parse sys path
    .ok (path, tree)

/-- `compile`, up to the text. -/
def compileTree : Except String (List Directive) := do
  let trees ← x.parsedFiles sys
  if (trees.lookup x.main).isNone then .error "Nginx has not been installed into its owned directory"
  else do
    let (result, _) ← x.expand sys trees 32 [] x.main 0
    let body ← result.mapM x.withTempPaths
    .ok (x.header result ++ body)

def compile : Except String Bytes := do
  let tree ← x.compileTree sys
  if maxConfigBytes < (sys.render tree).length then .error "Expanded Nginx configuration exceeds 2 MiB"
  else .ok (sys.render tree)

end NginxRuntime

end OpenNode.NginxCompile
