import OpenNode.Lib.Edits
import OpenNode.Lib.Loops
import OpenNode.NginxCompile

namespace OpenNode.NginxCompile

open PosixPaths Globs Edits List

variable {x : NginxRuntime} {sys : System} {trees : List (Path × List Directive)}

/-- A path that stays under a directory, with no link on the way to it. -/
structure Within (sys : System) (root path : Path) : Prop where
  inside : Path.Inside root path
  unlinked : ∀ item ∈ path.upward, sys.entry item ≠ some .symlink

def allowedRoots (x : NginxRuntime) : List Path := x.html :: x.siteRoots

/-- The arguments with which a directive is kept. -/
inductive Kept (x : NginxRuntime) (sys : System) (name : String) : List String → List String → Prop
  | absent (other : name ≠ "error_log") : Kept x sys name [] []
  | errorLog {args : List String} (named : name = "error_log") : Kept x sys name args ["stderr", "notice"]
  | accessLog {first : String} {rest : List String} (named : name = "access_log") (on : first ≠ "off") :
      Kept x sys name (first :: rest) ("/dev/stdout" :: rest)
  | certificate {first : String} {rest : List String} {path : Path} (named : name = "ssl_certificate" ∨
      name = "ssl_certificate_key")
      (within : Within sys x.certs path) (proper : path ≠ x.certs) : Kept x sys name (first :: rest)
        (path.str :: rest)
  | content {first : String} {rest : List String} {root path : Path} (named : name = "root" ∨ name = "alias")
      (allowed : root ∈ allowedRoots x) (within : Within sys root path) : Kept x sys name (first :: rest)
        (path.str :: rest)
  | temporary {first : String} {rest : List String} (named : tempPath.isSuffixOf name.toList = true) :
      Kept x sys name (first :: rest) ((x.state.join (Path.parse name)).str :: rest)
  | same {first : String} {rest : List String} (other : name ∉ ["error_log", "ssl_certificate",
      "ssl_certificate_key", "root", "alias"])
      (on : name = "access_log" → first = "off") (plain : tempPath.isSuffixOf name.toList = false) :
      Kept x sys name (first :: rest) (first :: rest)

/-- What is expanded: the directives of one file, or files one after the other. -/
inductive Source where
  | items (items : List Directive)
  | files (paths : List Path)

/-- The directives in include order, with the files that they come from: an include is
replaced by the files that it names, and another directive keeps its place and its block. -/
inductive Inlined (x : NginxRuntime) (sys : System) (trees : List (Path × List Directive)) :
    Source → List Directive → List Path → Prop
  | nil : Inlined x sys trees (.items []) [] []
  | inclusion {item : Directive} {value : String} {pattern : Path} {rest front back : List Directive}
      {files files' : List Path}
      (named : item.name = "include") (args : item.args = [value]) (path : x.configPath sys (Path.parse value) =
        .ok pattern)
      (inner : Inlined x sys trees (.files (NginxRuntime.matching (trees.map Prod.fst) pattern)) front files)
      (later : Inlined x sys trees (.items rest) back files') :
      Inlined x sys trees (.items (item :: rest)) (front ++ back) (files ++ files')
  | simple {name : String} {args args' : List String} {rest out : List Directive} {files : List Path}
      (other : name ≠ "include") (free : name ∉ NginxRuntime.controlled) (kept : Kept x sys name args args')
      (later : Inlined x sys trees (.items rest) out files) :
      Inlined x sys trees (.items (.simple name args :: rest)) (.simple name args' :: out) files
  | block {name : String} {args args' : List String} {items items' rest out : List Directive}
      {files files' : List Path}
      (other : name ≠ "include") (free : name ∉ NginxRuntime.controlled) (kept : Kept x sys name args args')
      (inner : Inlined x sys trees (.items items) items' files)
        (later : Inlined x sys trees (.items rest) out files') :
      Inlined x sys trees (.items (.block name args items :: rest)) (.block name args' items' :: out)
        (files ++ files')
  | done : Inlined x sys trees (.files []) [] []
  | file {path : Path} {paths : List Path} {front back : List Directive} {files files' : List Path}
      (inner : Inlined x sys trees (.items ((trees.lookup path).getD [])) front files)
      (later : Inlined x sys trees (.files paths) back files') :
      Inlined x sys trees (.files (path :: paths)) (front ++ back) (path :: files ++ files')

variable {path : Path}

theorem guardedPath_ok {root value : Path} (ok : guardedPath sys root value = .ok path) :
    path = root.join value ∧ Within sys root path ∧ path ≠ root := by
  unfold guardedPath at ok
  dsimp only at ok
  split at ok
  · cases ok
  · rename_i guarded
    rw [not_or, not_or, not_not] at guarded
    obtain ⟨level, inside, proper⟩ := guarded
    split at ok
    · cases ok
    · rename_i links
      have unlinked : ∀ item ∈ (root.join value).upward, sys.entry item ≠ some .symlink := by
        intro item member linked
        exact links (List.any_eq_true.mpr ⟨item, member, decide_eq_true linked⟩)
      have same : path = root.join value := by
        split at ok
        · exact (Except.ok.inj ok).symm
        · split at ok
          · cases ok
          · exact (Except.ok.inj ok).symm
        · cases ok
      subst same
      exact ⟨rfl, ⟨⟨inside, level⟩, unlinked⟩, proper⟩

variable {value : String}

theorem certPath_ok (ok : x.certPath sys value = .ok path) : Within sys x.certs path ∧ path ≠ x.certs := by
  unfold NginxRuntime.certPath at ok
  split at ok
  · cases ok
  · obtain ⟨guarded, checked, ok⟩ := bind_eq_ok ok
    split at ok
    · cases ok
    · cases ok
      exact (guardedPath_ok checked).2

theorem allowedRoots_absolute {root : Path} (allowed : root ∈ allowedRoots x) : root.anchor ≠ .relative := by
  rcases List.mem_cons.mp allowed with rfl | site
  · have state : x.html.anchor = x.state.anchor := rfl
    rw [state]
    exact x.absolute x.state mem_cons_self
  · exact x.absolute root (mem_cons_of_mem _ site)

theorem sitePath_ok (ok : x.sitePath sys value = .ok path) : ∃ root ∈ allowedRoots x, Within sys root path := by
  unfold NginxRuntime.sitePath at ok
  split at ok
  · cases ok
  · dsimp only at ok
    split at ok
    · cases ok
    · rename_i root found
      have allowed : root ∈ allowedRoots x := mem_of_find?_eq_some found
      have relative : Path.isRelativeTo root (Path.parse value) := by
        have test := List.find?_some found
        rcases of_decide_eq_true test with same | relative
        · exact same ▸ Path.isRelativeTo_self _
        · exact relative
      obtain ⟨guarded, checked, ok⟩ := bind_eq_ok ok
      cases ok
      obtain ⟨rfl, within, -⟩ := guardedPath_ok checked
      have below : checkName.anchor = .relative := rfl
      have anchored : ((Path.parse value).join checkName).anchor ≠ .relative := by
        rw [Path.anchor_join below, relative.1]
        exact allowedRoots_absolute allowed
      rw [Path.join, if_neg anchored] at within
      refine ⟨root, allowed, ⟨relative, fun up => ?_⟩, fun item above =>
        within.unlinked item (Path.upward_join below above)⟩
      exact within.inside.2 (Path.parts_join below ▸ mem_append_left _ up)

variable {name : String} {args args' : List String}

theorem arguments_ok (ok : x.arguments sys name args = .ok args') :
    Kept x sys name args args' := by
  unfold NginxRuntime.arguments at ok
  split at ok
  · rename_i errorLog
    cases ok
    exact .errorLog errorLog
  · rename_i errorLog
    split at ok
    · cases ok
      exact .absent errorLog
    · rename_i first rest
      split at ok
      · rename_i access
        cases ok
        exact .accessLog access.1 access.2
      · rename_i access
        split at ok
        · rename_i certificate
          obtain ⟨path, checked, ok⟩ := bind_eq_ok ok
          cases ok
          exact .certificate certificate (certPath_ok checked).1 (certPath_ok checked).2
        · rename_i certificate
          split at ok
          · rename_i content
            obtain ⟨path, checked, ok⟩ := bind_eq_ok ok
            cases ok
            obtain ⟨root, allowed, within⟩ := sitePath_ok checked
            exact .content content allowed within
          · rename_i content
            split at ok
            · rename_i temporary
              cases ok
              exact .temporary temporary
            · rename_i plain
              cases ok
              refine .same ?_ (fun named => ?_) (eq_false_of_ne_true plain)
              · simp [errorLog, not_or.mp certificate, not_or.mp content]
              · by_contra on
                exact access ⟨named, on⟩

/-- The length of a file. -/
def size (sys : System) (path : Path) : Nat :=
  match readPrivate sys path with
  | .ok data => data.length
  | .error _ => 0

/-- An expansion, with what it spends of the budget. -/
def Expands (x : NginxRuntime) (sys : System) (trees : List (Path × List Directive)) (source : Source)
    (budget : Nat)
    (out : List Directive) (budget' : Nat) : Prop :=
  ∃ files, Inlined x sys trees source out files ∧ budget' = budget + (files.map (size sys)).sum ∧
    (budget ≤ maxConfigBytes → budget' ≤ maxConfigBytes)

variable {expandOne : Path → Nat → Except String (List Directive × Nat)}

variable {paths : List Path} {budget budget' : Nat} {out : List Directive}

theorem expandAll_expands
    (each : ∀ path budget out budget', expandOne path budget = .ok (out, budget') →
      Expands x sys trees (.files [path]) budget out budget')
    (ok : NginxRuntime.expandAll expandOne paths budget = .ok (out, budget')) :
    Expands x sys trees (.files paths) budget out budget' := by
  induction paths generalizing budget out with
  | nil =>
    cases ok
    exact ⟨[], .done, rfl, id⟩
  | cons path paths ih =>
    obtain ⟨⟨front, middle⟩, first, ok⟩ := bind_eq_ok ok
    obtain ⟨⟨back, last⟩, second, ok⟩ := bind_eq_ok ok
    cases ok
    obtain ⟨files, inlined, spent, bound⟩ := each path budget front middle first
    obtain ⟨files', inlined', spent', bound'⟩ := ih second
    cases inlined with
    | file inner later =>
      cases later
      rw [append_nil]
      refine ⟨_, .file inner inlined', ?_, bound' ∘ bound⟩
      rw [spent', spent, append_nil, cons_append, map_cons, map_cons, map_append, sum_cons, sum_cons, sum_append]
      omega

variable {call : List String → Nat → Except String (List Directive × Nat)}

theorem keep_ok (ok : x.keep sys name args = .ok args') :
    name ∉ NginxRuntime.controlled ∧ Kept x sys name args args' := by
  unfold NginxRuntime.keep at ok
  split at ok
  · cases ok
  · exact ⟨‹_›, arguments_ok ok⟩

theorem nodes_cons_ok {item : Directive} {rest : List Directive}
    (ok : x.nodes sys call (item :: rest) budget = .ok (out, budget')) :
    ∃ front middle back, x.node sys call item budget = .ok (front, middle) ∧
      x.nodes sys call rest middle = .ok (back, budget') ∧ out = front ++ back := by
  rw [NginxRuntime.nodes] at ok
  obtain ⟨⟨front, middle⟩, first, ok⟩ := bind_eq_ok ok
  obtain ⟨⟨back, last⟩, second, ok⟩ := bind_eq_ok ok
  cases ok
  exact ⟨front, middle, back, first, second, rfl⟩

theorem node_simple_ok (ok : x.node sys call (.simple name args) budget = .ok (out, budget')) :
    (name = "include" ∧ call args budget = .ok (out, budget')) ∨
      (name ≠ "include" ∧ budget' = budget ∧ ∃ args', x.keep sys name args = .ok args' ∧
        out = [.simple name args']) := by
  rw [NginxRuntime.node] at ok
  split at ok
  · exact .inl ⟨‹_›, ok⟩
  · obtain ⟨args', kept, ok⟩ := bind_eq_ok ok
    cases ok
    exact .inr ⟨‹_›, rfl, args', kept, rfl⟩

variable {items : List Directive}

theorem node_block_ok (ok : x.node sys call (.block name args items) budget = .ok (out, budget')) :
    (name = "include" ∧ call args budget = .ok (out, budget')) ∨
      (name ≠ "include" ∧ ∃ args' items', x.keep sys name args = .ok args' ∧
        x.nodes sys call items budget = .ok (items', budget') ∧ out = [.block name args' items']) := by
  rw [NginxRuntime.node] at ok
  split at ok
  · exact .inl ⟨‹_›, ok⟩
  · obtain ⟨args', kept, ok⟩ := bind_eq_ok ok
    obtain ⟨⟨items', middle⟩, inner, ok⟩ := bind_eq_ok ok
    cases ok
    exact .inr ⟨‹_›, args', items', kept, inner, rfl⟩

theorem directives_induction {P : List Directive → Prop} (nil : P [])
    (simple : ∀ name args rest, P rest → P (.simple name args :: rest))
    (block : ∀ name args items rest, P items → P rest → P (.block name args items :: rest))
    (items : List Directive) :
    P items :=
  walk.induct P (fun item => ∀ rest, P rest → P (item :: rest)) simple
    (fun name args items inner rest later => block name args items rest inner later) nil
    (fun _ rest one later => one rest later) items

variable {available : List Path}

theorem includes_expands (listed : available = trees.map Prod.fst)
    (each : ∀ path budget out budget', expandOne path budget = .ok (out, budget') →
      Expands x sys trees (.files [path]) budget out budget')
    (ok : x.includes sys available expandOne args budget = .ok (out, budget')) :
    ∃ value pattern, args = [value] ∧ x.configPath sys (Path.parse value) = .ok pattern ∧
      Expands x sys trees (.files (NginxRuntime.matching (trees.map Prod.fst) pattern)) budget out budget' := by
  unfold NginxRuntime.includes at ok
  split at ok
  · rename_i value
    obtain ⟨pattern, path, ok⟩ := bind_eq_ok ok
    split at ok
    · cases ok
    · exact ⟨value, pattern, rfl, path, listed ▸ expandAll_expands each ok⟩
  · cases ok

theorem nodes_expands (listed : available = trees.map Prod.fst)
    (each : ∀ path budget out budget', expandOne path budget = .ok (out, budget') →
      Expands x sys trees (.files [path]) budget out budget')
    (ok : x.nodes sys (x.includes sys available expandOne) items budget = .ok (out, budget')) :
    Expands x sys trees (.items items) budget out budget' := by
  have included {item : Directive} {rest : List Directive} {front back : List Directive}
      {budget middle budget' : Nat}
      (named : item.name = "include") (first : x.includes sys available expandOne item.args budget =
        .ok (front, middle))
      (second : Expands x sys trees (.items rest) middle back budget') :
      Expands x sys trees (.items (item :: rest)) budget (front ++ back) budget' := by
    obtain ⟨value, pattern, args, path, files, inlined, spent, bound⟩ := includes_expands listed each first
    obtain ⟨files', inlined', spent', bound'⟩ := second
    refine ⟨files ++ files', .inclusion named args path inlined inlined', ?_, bound' ∘ bound⟩
    rw [spent', spent, map_append, sum_append, Nat.add_assoc]
  induction items using directives_induction generalizing budget budget' out with
  | nil =>
    rw [NginxRuntime.nodes] at ok
    cases ok
    exact ⟨[], .nil, rfl, id⟩
  | simple name args rest ih =>
    obtain ⟨front, middle, back, first, second, rfl⟩ := nodes_cons_ok ok
    rcases node_simple_ok first with ⟨named, call⟩ | ⟨other, rfl, args', kept, rfl⟩
    · exact included named call (ih second)
    · obtain ⟨files, inlined, spent⟩ := ih second
      exact ⟨files, .simple other (keep_ok kept).1 (keep_ok kept).2 inlined, spent⟩
  | block name args items rest inner_ih ih =>
    obtain ⟨front, middle, back, first, second, rfl⟩ := nodes_cons_ok ok
    rcases node_block_ok first with ⟨named, call⟩ | ⟨other, args', items', kept, inner, rfl⟩
    · exact included named call (ih second)
    · obtain ⟨files, inlined, spent, bound⟩ := inner_ih inner
      obtain ⟨files', inlined', spent', bound'⟩ := ih second
      refine ⟨files ++ files', .block other (keep_ok kept).1 (keep_ok kept).2 inlined inlined', ?_, bound' ∘ bound⟩
      rw [spent', spent, map_append, sum_append, Nat.add_assoc]

theorem expand_expands {depth : Nat} {stack : List Path}
    (ok : x.expand sys trees depth stack path budget = .ok (out, budget')) :
    Expands x sys trees (.files [path]) budget out budget' := by
  induction depth generalizing stack path budget budget' out with
  | zero => cases ok
  | succ depth ih =>
    unfold NginxRuntime.expand at ok
    split at ok
    · cases ok
    · obtain ⟨data, read, ok⟩ := bind_eq_ok ok
      split at ok
      · cases ok
      · rename_i within
        obtain ⟨files, inlined, spent, bound⟩ := nodes_expands rfl (fun path budget out budget' => ih) ok
        have length : size sys path = data.length := by rw [size, read]
        refine ⟨path :: files, ?_, ?_, fun _ => bound (not_lt.mp within)⟩
        · have nothing : Inlined x sys trees (.files []) [] [] := .done
          have whole := Inlined.file inlined nothing
          rwa [append_nil, append_nil] at whole
        · rw [spent, map_cons, sum_cons, length, Nat.add_assoc]

/-- Where the first argument of a directive reaches. -/
structure Confined (x : NginxRuntime) (sys : System) (name : String) (args : List String) : Prop where
  noInclude : name ≠ "include"
  certificate : name = "ssl_certificate" ∨ name = "ssl_certificate_key" → ∀ value ∈ args.head?,
    Within sys x.certs (Path.parse value) ∧ Path.parse value ≠ x.certs
  content : name = "root" ∨ name = "alias" → ∀ value ∈ args.head?, ∃ root ∈ allowedRoots x,
    Within sys root (Path.parse value)
  temporary : tempPath.isSuffixOf name.toList = true →
    ∀ value ∈ args.head?, value = (x.state.join (Path.parse name)).str ∧
    ('/' ∉ name.toList → (Path.parse value).anchor = x.state.anchor ∧
      (Path.parse value).parts = x.state.parts ++ [name.toList])

/-- A condition on every directive at every level. -/
def Everywhere (P : String → List String → Prop) (items : List Directive) : Prop :=
  ∀ item ∈ walk items, P item.name item.args

section Everywhere
variable {P : String → List String → Prop}

variable {rest : List Directive}

theorem everywhere_cons {item : Directive} :
    Everywhere P (item :: rest) ↔ Everywhere P [item] ∧ Everywhere P rest := by
  simp only [Everywhere, walk, append_nil, forall_mem_append]

theorem everywhere_nil : Everywhere P [] := fun _ member => nomatch member

theorem everywhere_append {front back : List Directive} :
    Everywhere P (front ++ back) ↔ Everywhere P front ∧ Everywhere P back := by
  induction front with
  | nil => exact ⟨fun all => ⟨everywhere_nil, all⟩, And.right⟩
  | cons item front ih =>
    rw [cons_append, everywhere_cons, ih, ← and_assoc]
    exact and_congr_left fun _ => everywhere_cons.symm

variable {name : String} {args : List String}

theorem everywhere_simple : Everywhere P (.simple name args :: rest) ↔ P name args ∧ Everywhere P rest := by
  rw [everywhere_cons]
  simp only [Everywhere, walk, walkOne, append_nil, forall_mem_singleton]
  rfl

variable {items : List Directive}

theorem everywhere_block :
    Everywhere P (.block name args items :: rest) ↔ P name args ∧ Everywhere P items ∧ Everywhere P rest := by
  rw [everywhere_cons]
  simp only [Everywhere, walk, walkOne, append_nil, forall_mem_cons, and_assoc]
  rfl

theorem everywhere_flat (flat : ∀ item ∈ items, ∃ name args, item = .simple name args ∧ P name args) :
    Everywhere P items := by
  induction items with
  | nil => exact everywhere_nil
  | cons item items ih =>
    obtain ⟨name, args, rfl, here⟩ := flat item mem_cons_self
    exact everywhere_simple.mpr ⟨here, ih fun other member => flat other (mem_cons_of_mem _ member)⟩

end Everywhere

theorem tempPath_within (named : tempPath.isSuffixOf name.toList = true) (plain : '/' ∉ name.toList) :
    (Path.parse (x.state.join (Path.parse name)).str).anchor = x.state.anchor ∧
      (Path.parse (x.state.join (Path.parse name)).str).parts = x.state.parts ++ [name.toList] := by
  obtain ⟨front, text⟩ := List.isSuffixOf_iff_suffix.mp named
  have long : 2 ≤ name.toList.length := by
    rw [← text, length_append]
    have ten : tempPath.length = 10 := by decide
    omega
  have isName : IsName name.toList := by
    refine ⟨fun empty => ?_, fun dot => ?_, plain⟩
    · rw [empty] at long
      exact absurd long (by decide)
    · rw [dot] at long
      exact absurd long (by decide)
  obtain ⟨relative, parts⟩ := Path.parse_name isName
  rw [Path.parse_str, Path.anchor_join relative, Path.parts_join relative, parts]
  exact ⟨rfl, rfl⟩

theorem Kept.confined (kept : Kept x sys name args args') (other : name ≠ "include") :
    Confined x sys name args' := by
  cases kept with
  | absent => exact ⟨other, fun _ _ => nofun, fun _ _ => nofun, fun _ _ => nofun⟩
  | errorLog named =>
    subst named
    exact ⟨other, fun certificate => absurd certificate (by decide), fun content => absurd content (by decide),
      fun temporary => absurd temporary (by decide)⟩
  | accessLog named on =>
    subst named
    exact ⟨other, fun certificate => absurd certificate (by decide), fun content => absurd content (by decide),
      fun temporary => absurd temporary (by decide)⟩
  | certificate named within proper =>
    refine ⟨other, fun _ value member => ?_, fun content => ?_, fun temporary => ?_⟩
    · cases member
      rw [Path.parse_str]
      exact ⟨within, proper⟩
    · rcases named with rfl | rfl <;> exact absurd content (by decide)
    · rcases named with rfl | rfl <;> exact absurd temporary (by decide)
  | content named allowed within =>
    refine ⟨other, fun certificate => ?_, fun _ value member => ?_, fun temporary => ?_⟩
    · rcases named with rfl | rfl <;> exact absurd certificate (by decide)
    · cases member
      rw [Path.parse_str]
      exact ⟨_, allowed, within⟩
    · rcases named with rfl | rfl <;> exact absurd temporary (by decide)
  | temporary named =>
    refine ⟨other, fun certificate => ?_, fun content => ?_, fun _ value member => ?_⟩
    · rcases certificate with rfl | rfl <;> exact absurd named (by decide)
    · rcases content with rfl | rfl <;> exact absurd named (by decide)
    · cases member
      exact ⟨rfl, tempPath_within named⟩
  | same plain on free =>
    simp only [mem_cons, not_mem_nil, or_false, not_or] at plain
    obtain ⟨-, certificate, key, root, alias_⟩ := plain
    exact ⟨other, fun named => (named.elim certificate key).elim, fun named => (named.elim root alias_).elim,
      fun temporary => absurd (free.symm.trans temporary) nofun⟩

/-- The directives of the files: confined, and none that the Agent controls. -/
def Allowed (x : NginxRuntime) (sys : System) (name : String) (args : List String) : Prop :=
  Confined x sys name args ∧ name ∉ NginxRuntime.controlled

variable {source : Source} {files : List Path}

theorem Inlined.allowed (inlined : Inlined x sys trees source out files) : Everywhere (Allowed x sys) out := by
  induction inlined with
  | nil => exact everywhere_nil
  | inclusion named args path inner later inner_ih ih => exact everywhere_append.mpr ⟨inner_ih, ih⟩
  | simple other free kept later ih => exact everywhere_simple.mpr ⟨⟨kept.confined other, free⟩, ih⟩
  | block other free kept inner later inner_ih ih =>
    exact everywhere_block.mpr ⟨⟨kept.confined other, free⟩, inner_ih, ih⟩
  | done => exact everywhere_nil
  | file inner later inner_ih ih => exact everywhere_append.mpr ⟨inner_ih, ih⟩

theorem missingTempPaths_allowed (items : List Directive) :
    Everywhere (Allowed x sys) (x.missingTempPaths items) := by
  refine everywhere_flat fun item member => ?_
  obtain ⟨name, listed, rfl⟩ := List.mem_map.mp member
  refine ⟨name, _, rfl, ?_⟩
  have known : name ∈ NginxRuntime.tempNames := mem_of_mem_filter listed
  have apart : ∀ other ∈ NginxRuntime.tempNames, other ≠ "include" ∧ other ∉ NginxRuntime.controlled ∧
      ¬ (other = "ssl_certificate" ∨ other = "ssl_certificate_key") ∧
        ¬ (other = "root" ∨ other = "alias") := by decide
  obtain ⟨other, free, certificate, content⟩ := apart name known
  refine ⟨⟨other, fun named => absurd named certificate, fun named => absurd named content,
    fun named value member => ?_⟩, free⟩
  cases member
  exact ⟨rfl, tempPath_within named⟩

theorem withTempPaths_allowed {item item' : Directive} (completed : x.withTempPaths item = .ok item')
    (allowed : Everywhere (Allowed x sys) [item]) : Everywhere (Allowed x sys) [item'] := by
  cases item with
  | simple name args =>
    rw [NginxRuntime.withTempPaths] at completed
    split at completed
    · cases completed
    · exact Except.ok.inj completed ▸ allowed
  | block name args items =>
    obtain ⟨here, inner, -⟩ := everywhere_block.mp allowed
    rw [← Except.ok.inj completed]
    refine everywhere_block.mpr ⟨here, ?_, everywhere_nil⟩
    split
    · exact everywhere_append.mpr ⟨inner, missingTempPaths_allowed items⟩
    · exact inner

theorem completed_allowed {body : List Directive}
    (completed : List.Forall₂ (fun item item' => x.withTempPaths item = .ok item') out body)
    (allowed : Everywhere (Allowed x sys) out) : Everywhere (Allowed x sys) body := by
  induction completed with
  | nil => exact everywhere_nil
  | cons one _ ih =>
    obtain ⟨here, later⟩ := everywhere_cons.mp allowed
    exact everywhere_cons.mpr ⟨withTempPaths_allowed one here, ih later⟩

theorem header_confined (result : List Directive) : Everywhere (Confined x sys) (x.header result) := by
  have plain {name : String} {args : List String} (known : name ∈ ["load_module", "pid", "worker_processes",
      "error_log"]) :
      Confined x sys name args := by
    have apart : ∀ other ∈ ["load_module", "pid", "worker_processes", "error_log"], other ≠ "include" ∧
        ¬ (other = "ssl_certificate" ∨ other = "ssl_certificate_key") ∧ ¬ (other = "root" ∨ other = "alias") ∧
          tempPath.isSuffixOf other.toList = false := by decide
    obtain ⟨other, certificate, content, temporary⟩ := apart name known
    exact ⟨other, fun named => absurd named certificate, fun named => absurd named content,
      fun named => absurd (temporary.symm.trans named) nofun⟩
  refine everywhere_flat fun item member => ?_
  rw [NginxRuntime.header, mem_append, mem_append, mem_append] at member
  rcases member with ((modules | pid) | workers) | errorLog
  · obtain ⟨path, -, rfl⟩ := List.mem_map.mp modules
    exact ⟨_, _, rfl, plain (by decide)⟩
  · obtain rfl := List.mem_singleton.mp pid
    exact ⟨_, _, rfl, plain (by decide)⟩
  · split at workers
    · cases workers
    · obtain rfl := List.mem_singleton.mp workers
      exact ⟨_, _, rfl, plain (by decide)⟩
  · split at errorLog
    · cases errorLog
    · obtain rfl := List.mem_singleton.mp errorLog
      exact ⟨_, _, rfl, plain (by decide)⟩

theorem configPath_ok {value : Path} (ok : x.configPath sys value = .ok path) : Within sys x.root path := by
  obtain ⟨guarded, checked, ok⟩ := bind_eq_ok ok
  split at ok
  · cases ok
  · cases ok
    exact (guardedPath_ok checked).2.1

theorem addFile_within {directory : Path} {found found' : List Path} (here : ∀ path ∈ found, Within sys x.root path)
    (ok : x.addFile sys directory found name = .ok found') :
    ∀ path ∈ found', Within sys x.root path := by
  unfold NginxRuntime.addFile at ok
  split at ok
  · obtain ⟨path, checked, ok⟩ := bind_eq_ok ok
    split at ok
    · cases ok
    · cases ok
      intro other member
      rcases List.mem_append.mp member with old | last
      · exact here other old
      · exact List.mem_singleton.mp last ▸ configPath_ok checked
  · cases ok
    exact here

theorem files_within (ok : x.files sys = .ok paths) : ∀ path ∈ paths, Within sys x.root path := by
  unfold NginxRuntime.files at ok
  split at ok
  · cases ok
    exact fun path member => absurd member not_mem_nil
  · obtain ⟨found, walked, ok⟩ := bind_eq_ok ok
    cases ok
    have within : ∀ path ∈ found, Within sys x.root path := by
      refine foldlM_keeps (P := fun found => ∀ path ∈ found, Within sys x.root path) ?_
        (fun path member => absurd member not_mem_nil) walked
      intro entry _ before after here ok
      unfold NginxRuntime.addDirectory at ok
      split at ok
      · cases ok
      · exact foldlM_keeps (P := fun found => ∀ path ∈ found, Within sys x.root path)
          (fun name _ _ _ here ok => addFile_within here ok) here ok
    exact fun path member => within path ((mem_insertionSort NginxRuntime.before).mp member)

theorem parsedFiles_within (parsed : x.parsedFiles sys = .ok trees) : ∀ path ∈ trees.map Prod.fst,
    Within sys x.root path := by
  obtain ⟨paths, listed, ok⟩ := bind_eq_ok parsed
  have pairs := Loops.mapM_ok ok
  have names : trees.map Prod.fst = paths := by
    clear ok listed parsed
    induction pairs with
    | nil => rfl
    | cons one _ ih =>
      obtain ⟨tree, -, same⟩ := bind_eq_ok one
      cases same
      exact congrArg (List.cons _) ih
  exact names ▸ files_within listed

theorem Inlined.files_listed (inlined : Inlined x sys trees source out files)
    (start : ∀ paths, source = .files paths → ∀ path ∈ paths, path ∈ trees.map Prod.fst) :
    ∀ path ∈ files, path ∈ trees.map Prod.fst := by
  induction inlined with
  | nil | done => exact fun path member => absurd member not_mem_nil
  | inclusion named args path inner later inner_ih ih =>
    refine List.forall_mem_append.mpr ⟨inner_ih ?_, ih nofun⟩
    rintro _ ⟨⟩ path member
    exact mem_of_mem_filter member
  | simple other free kept later ih => exact ih nofun
  | block other free kept inner later inner_ih ih => exact List.forall_mem_append.mpr ⟨inner_ih nofun, ih nofun⟩
  | @file path paths front back files files' inner later inner_ih ih =>
    rw [cons_append, forall_mem_cons, forall_mem_append]
    refine ⟨start _ rfl path mem_cons_self, inner_ih nofun, ih ?_⟩
    rintro _ ⟨⟩ other member
    exact start _ rfl other (mem_cons_of_mem _ member)

theorem compileTree_ok {tree : List Directive} (ok : x.compileTree sys = .ok tree) :
    ∃ trees out body files, x.parsedFiles sys = .ok trees ∧ x.main ∈ trees.map Prod.fst ∧
      Inlined x sys trees (.files [x.main]) out files ∧ (files.map (size sys)).sum ≤ maxConfigBytes ∧
      List.Forall₂ (fun item item' => x.withTempPaths item = .ok item') out body ∧ tree = x.header out ++ body := by
  obtain ⟨trees, parsed, ok⟩ := bind_eq_ok ok
  split at ok
  · cases ok
  · rename_i found
    obtain ⟨⟨out, spent⟩, expanded, ok⟩ := bind_eq_ok ok
    obtain ⟨body, completed, ok⟩ := bind_eq_ok ok
    obtain ⟨files, inlined, total, bound⟩ := expand_expands expanded
    refine ⟨trees, out, body, files, parsed, ?_, inlined, ?_, Loops.mapM_ok completed, (Except.ok.inj ok).symm⟩
    · obtain ⟨main, here⟩ :=
        Option.ne_none_iff_exists'.mp (fun missing => found (Option.isNone_iff_eq_none.mpr missing))
      obtain ⟨front, back, rfl, -⟩ := List.lookup_eq_some_iff.mp here
      exact List.mem_map.mpr ⟨(x.main, main), mem_append_right _ mem_cons_self, rfl⟩
    · rw [← Nat.zero_add (files.map (size sys)).sum, ← total]
      exact bound (Nat.zero_le _)

/-- `compile` refuses, or its tree is the Agent's header and the directives of the files in
include order, with the temporary paths that an `http` block lacks; every directive is
confined, none of the files' is the Agent's, and the files stay under the directory and
within the limit. -/
theorem compile_law (x : NginxRuntime) (sys : System) : (∃ error, x.compile sys = .error error) ∨
    ∃ trees out body files, x.compile sys = .ok (sys.render (x.header out ++ body)) ∧
      (sys.render (x.header out ++ body)).length ≤ maxConfigBytes ∧
      x.parsedFiles sys = .ok trees ∧ Inlined x sys trees (.files [x.main]) out files ∧
      List.Forall₂ (fun item item' => x.withTempPaths item = .ok item') out body ∧
      Everywhere (Confined x sys) (x.header out ++ body) ∧
      Everywhere (fun name _ => name ∉ NginxRuntime.controlled) body ∧
      (∀ path ∈ files, path ∈ trees.map Prod.fst ∧ Within sys x.root path) ∧
      (files.map (size sys)).sum ≤ maxConfigBytes := by
  cases compiled : x.compile sys with
  | error error => exact .inl ⟨error, rfl⟩
  | ok content =>
    right
    obtain ⟨tree, built, short⟩ := bind_eq_ok compiled
    obtain ⟨trees, out, body, files, parsed, main, inlined, total, completed, rfl⟩ := compileTree_ok built
    split at short
    · cases short
    · rename_i bound
      cases short
      have allowed := completed_allowed completed inlined.allowed
      have listed := inlined.files_listed fun paths same path member => by
        cases same
        exact List.mem_singleton.mp member ▸ main
      exact ⟨trees, out, body, files, rfl, not_lt.mp bound, parsed, inlined, completed,
        everywhere_append.mpr ⟨header_confined out, fun item member => (allowed item member).1⟩,
        fun item member => (allowed item member).2,
        fun path member => ⟨listed path member, parsedFiles_within parsed path (listed path member)⟩, total⟩

def agentPaths : NginxRuntime where
  root := Path.parse "/etc/agent/nginx"
  certs := Path.parse "/etc/agent/certificates"
  state := Path.parse "/var/lib/agent/nginx"
  modules := []
  siteRoots := []
  absolute := by decide

/-- One file, with a directive that no Nginx has. -/
def slashedName : System where
  entry path :=
    if path = agentPaths.main then some (.file [0] 1) else if path = agentPaths.root then some .directory else none
  walked := [(agentPaths.root, [], ["nginx.conf"])]
  parsed _ := some [.simple "/etc/x_temp_path" ["cache"]]
  render _ := []

/-- A name that is itself an absolute path is not placed in the state directory. -/
theorem slashedName_not_confined : ∃ tree, agentPaths.compileTree slashedName = .ok tree ∧
    ∃ item ∈ walk tree, tempPath.isSuffixOf item.name.toList = true ∧
      ∃ value ∈ item.args, ¬ Path.isRelativeTo agentPaths.state (Path.parse value) := by
  have run : (match agentPaths.compileTree slashedName with
      | .ok tree => (walk tree).any fun item => tempPath.isSuffixOf item.name.toList &&
        item.args.any fun value => ¬ Path.isRelativeTo agentPaths.state (Path.parse value)
      | .error _ => false) = true := by decide +kernel
  split at run
  · rename_i tree compiled
    obtain ⟨item, member, test⟩ := List.any_eq_true.mp run
    rw [Bool.and_eq_true, any_eq_true] at test
    obtain ⟨named, value, inside, outside⟩ := test
    exact ⟨tree, compiled, item, member, named, value, inside, of_decide_eq_true outside⟩
  · cases run

end OpenNode.NginxCompile
