import OpenNode.Json
import OpenNode.Lib.Assoc
import OpenNode.Lib.FreshNames
import OpenNode.Lib.Loops
import OpenNode.Lib.PrefixOrder
import OpenNode.Lib.Table

namespace OpenNode.XrayBalance

open Assoc FreshNames List Loops PrefixOrder

abbrev Fields := List (String × Json)

/-- What the document takes from outside: the hexadecimal digest of a text, `str` of a value
that is not a text, and the rest of the outbound of a proxy, which may be missing. -/
structure Naming where
  hex : String → List Char
  long : ∀ text, (hex text).length = 64
  str : Json → String
  body : Fields → Option Json

structure Group where
  tag : String
  members : List String
deriving DecidableEq

inductive Outbound where
  | proxy (tag : String) (dialer : Option String) (body : Json)
  | loopback (tag inboundTag : String)

def Outbound.tag : Outbound → String
  | .proxy tag _ _ => tag
  | .loopback tag _ => tag

structure Rule where
  inboundTag : String
  balancerTag : String

structure Balancer where
  tag : String
  selector : String

structure Document where
  inbounds : List String
  outbounds : List Outbound
  rules : List Rule
  balancers : List Balancer

inductive Outcome where
  | document (value : Document)
  | raised

def valueAt (key : String) (fields : Fields) : Json :=
  (fields.lookup key).getD .null

def texts (values : List Json) : List String :=
  (values.filterMap Json.str?).filter (· ≠ "")

/-- A group as a proxy lists it. -/
def readGroup : Json → Option Group
  | .obj fields =>
    match valueAt "name" fields, valueAt "proxies" fields with
    | .str tag, .arr values =>
      if tag = "" ∨ (texts values).length < 2 ∨ ¬ (texts values).Nodup then none
      else some { tag := tag, members := texts values }
    | _, _ => none
  | _ => none

def addGroup (groups : List Group) (raw : Json) : List Group :=
  match readGroup raw with
  | some group => if group.tag ∈ groups.map Group.tag then groups else groups ++ [group]
  | none => groups

def rawGroups (proxy : Fields) : List Json :=
  match valueAt "_open_node_proxy_groups" proxy with
  | .arr values => values
  | _ => []

/-- `_subscription_topology_groups`. -/
def topologyGroups (proxies : List Fields) : List Group :=
  (proxies.flatMap rawGroups).foldl addGroup []

def memberHead : List Char := "open-node-xray-member-".toList

def loopbackHead : List Char := "open-node-xray-loopback-".toList

/-- The private prefix of a group's members in an attempt. -/
def memberPrefix (digest : List Char) (attempt : Nat) : List Char :=
  memberHead ++ (digest ++ '-' :: if attempt = 1 then [] else Nat.toDigits 10 attempt ++ ['-'])

def conflicts (others : List String) (prefixes : List (List Char)) (candidate : List Char) : Bool :=
  others.any (fun tag => candidate.isPrefixOf tag.toList) ||
    prefixes.any fun existing => existing.isPrefixOf candidate || candidate.isPrefixOf existing

/-- The tag of the member at this place, counted from one. -/
def memberTag (start : List Char) (count index : Nat) : String :=
  String.ofList (start ++ (Nat.toDigits 10 index).leftpad (max 2 (Nat.toDigits 10 count).length) '0')

def groupTags (pair : Group × List Char) : List (String × String) :=
  (pair.1.members.zipIdx 1).map fun member => (member.1, memberTag pair.2 pair.1.members.length member.2)

def memberTags (groups : List Group) (prefixes : List (List Char)) : List (String × String) :=
  update [] ((groups.zip prefixes).flatMap groupTags)

def loopbackTag (digest : List Char) (attempt : Nat) : String :=
  String.ofList (loopbackHead ++ (digest ++ if attempt = 1 then [] else '-' :: Nat.toDigits 10 attempt))

def inboundTag (loopback : String) : String :=
  String.ofList (loopback.toList ++ "-in".toList)

section

variable (naming : Naming)

/-- `str(proxy.get("name") or "proxy")`. -/
def nameOf (proxy : Fields) : String :=
  match valueAt "name" proxy with
  | .str name => if name = "" then "proxy" else name
  | value => if value.truthy then naming.str value else "proxy"

def digest (group : Group) : List Char :=
  (naming.hex group.tag).take 16

def addPrefix (tries : Nat) (others : List String) (prefixes : List (List Char)) (group : Group) :
    Option (List (List Char)) :=
  (firstFree (fun attempt => conflicts others prefixes (memberPrefix (digest naming group) attempt)) tries 1).map
    fun attempt => prefixes ++ [memberPrefix (digest naming group) attempt]

/-- The first loop of `_render_xray_subscription`; a search has so many tries. -/
def memberPrefixes (tries : Nat) (others : List String) (groups : List Group) : Option (List (List Char)) :=
  groups.foldlM (addPrefix naming tries others) []

def addLoopback (tries : Nat) (occupied : List String) (loopbacks : List String) (group : Group) :
    Option (List String) :=
  (firstFree (fun attempt => (occupied ++ loopbacks).contains (loopbackTag (digest naming group) attempt))
    tries 1).map
    fun attempt => loopbacks ++ [loopbackTag (digest naming group) attempt]

/-- The second loop: the loopback tags of the groups in their order. -/
def loopbackTags (tries : Nat) (occupied : List String) (groups : List Group) : Option (List String) :=
  groups.foldlM (addLoopback naming tries occupied) []

/-- The dialer of a proxy in the document. -/
def dialerOf (tags loopbacks : List (String × String)) (proxy : Fields) : Option String :=
  match valueAt "dialer-proxy" proxy with
  | .str dialer =>
    let rewritten := ((loopbacks.lookup dialer).or (tags.lookup dialer)).getD dialer
    if rewritten = "" then none else some rewritten
  | value => if value.truthy then some (naming.str value) else none

def convert (tags loopbacks : List (String × String)) (proxy : Fields) : Option Outbound :=
  (naming.body proxy).map fun body =>
    .proxy ((tags.lookup (nameOf naming proxy)).getD (nameOf naming proxy))
      (dialerOf naming tags loopbacks proxy) body

def ordered (proxies : List Fields) : List Fields :=
  proxies.filter (fun proxy => !(valueAt "_open_node_hidden" proxy).truthy) ++
    proxies.filter fun proxy => (valueAt "_open_node_hidden" proxy).truthy

/-- The names of the proxies that are in no group. -/
def nonmembers (proxies : List Fields) : List String :=
  (proxies.map (nameOf naming)).filter (· ∉ (topologyGroups proxies).flatMap Group.members)

/-- `_render_xray_subscription`, nothing while a search with so many tries still runs. -/
def renderXray (tries : Nat) (proxies : List Fields) : Option Outcome := do
  let groups := topologyGroups proxies
  let prefixes ← memberPrefixes naming tries (nonmembers naming proxies) groups
  let tags := memberTags groups prefixes
  let loopbacks ← loopbackTags naming tries (nonmembers naming proxies ++ tags.map Prod.snd) groups
  match (ordered proxies).mapM (convert naming tags ((groups.map Group.tag).zip loopbacks)) with
  | none => some .raised
  | some outbounds =>
    some (.document
      { inbounds := ["socks-in"]
        outbounds := outbounds ++ loopbacks.map fun tag => .loopback tag (inboundTag tag)
        rules := (groups.zip loopbacks).map fun pair =>
          { inboundTag := inboundTag pair.2, balancerTag := pair.1.tag }
        balancers := (groups.zip prefixes).map fun pair =>
          { tag := pair.1.tag, selector := String.ofList pair.2 } })

end

/-- Two lists of which one begins with the other. -/
def Comparable {α : Type} (a b : List α) : Prop :=
  a <+: b ∨ b <+: a

theorem comparable_of_begins {α : Type} {a b c : List α} (first : a <+: c) (second : b <+: c) : Comparable a b :=
  prefix_or_prefix_of_prefix first second

theorem Comparable.symm {α : Type} {a b : List α} (related : Comparable a b) : Comparable b a :=
  Or.symm related

theorem comparable_append_left {α : Type} {a b c : List α} : Comparable (a ++ b) (a ++ c) ↔ Comparable b c := by
  rw [Comparable, prefix_append_right_inj, prefix_append_right_inj, Comparable]

theorem prefix_append_of_length {α : Type} {a b c d : List α} (same : a.length = b.length)
    (related : a ++ c <+: b ++ d) :
    a = b ∧ c <+: d := by
  have heads : a = b := by
    have first : a <+: b ++ d := (prefix_append a c).trans related
    exact (prefix_of_prefix_length_le first (prefix_append b d) same.le).eq_of_length same
  subst heads
  exact ⟨rfl, (prefix_append_right_inj a).mp related⟩

theorem Comparable.of_length {α : Type} {a b c d : List α} (same : a.length = b.length)
    (related : Comparable (a ++ c) (b ++ d)) :
    a = b ∧ Comparable c d := by
  rcases related with low | high
  · exact (prefix_append_of_length same low).imp_right .inl
  · obtain ⟨heads, tails⟩ := prefix_append_of_length same.symm high
    exact ⟨heads.symm, .inr tails⟩

theorem prefix_of_separator {α : Type} {c : α} {u v x : List α} (free : c ∉ v) (related : v ++ [c] <+: u ++ x)
    (short : c ∉ u)
    (long : u ++ [c] <+: u ++ x) : u = v := by
  obtain ⟨tail, split⟩ := related
  obtain ⟨rest, other⟩ := long
  have same : v ++ c :: tail = u ++ c :: rest := by
    rw [← append_cons] at split other
    exact split.trans other.symm
  rcases List.append_eq_append_iff.mp same with ⟨a, rfl, here⟩ | ⟨a, rfl, here⟩
  · cases a with
    | nil => rw [append_nil]
    | cons b a =>
      obtain ⟨rfl, -⟩ := List.cons.inj here
      exact absurd (mem_append_right v mem_cons_self) short
  · cases a with
    | nil => rw [append_nil]
    | cons b a =>
      obtain ⟨rfl, -⟩ := List.cons.inj here
      exact absurd (mem_append_right u mem_cons_self) free

variable {a b : Nat}

theorem toDigits_inj (same : Nat.toDigits 10 a = Nat.toDigits 10 b) : a = b := by
  rw [← Nat.ofDigitChars_ten_toDigits (n := a), ← Nat.ofDigitChars_ten_toDigits (n := b), same]

theorem dash_notMem_toDigits (a : Nat) : '-' ∉ Nat.toDigits 10 a := fun here =>
  absurd (Nat.isDigit_of_mem_toDigits (by decide) (by decide) here) (by decide)

theorem leftpad_toDigits_inj {width : Nat}
    (same : (Nat.toDigits 10 a).leftpad width '0' = (Nat.toDigits 10 b).leftpad width '0') : a = b := by
  have value (n : Nat) : Nat.ofDigitChars 10 ((Nat.toDigits 10 n).leftpad width '0') 0 = n := by
    rw [List.leftpad, Nat.ofDigitChars_append, Nat.ofDigitChars_replicate_zero, Nat.mul_zero,
      Nat.ofDigitChars_ten_toDigits]
  rw [← value a, ← value b, same]

theorem digits_comparable (related : Comparable (Nat.toDigits 10 a ++ ['-']) (Nat.toDigits 10 b ++ ['-'])) :
    a = b := by
  refine toDigits_inj ?_
  rcases related with low | high
  · exact (prefix_of_separator (dash_notMem_toDigits a) low (dash_notMem_toDigits b) prefix_rfl).symm
  · exact prefix_of_separator (dash_notMem_toDigits b) high (dash_notMem_toDigits a) prefix_rfl

theorem memberPrefix_comparable {d d' : List Char} (same : d.length = d'.length)
    (related : Comparable (memberPrefix d a) (memberPrefix d' b)) : d = d' ∧ (a ≠ 1 → b ≠ 1 → a = b) := by
  rw [memberPrefix, memberPrefix, comparable_append_left] at related
  obtain ⟨digests, related⟩ := related.of_length same
  refine ⟨digests, fun first second => ?_⟩
  rw [if_neg first, if_neg second] at related
  exact digits_comparable (comparable_append_left (a := ['-']).mp related)

theorem memberPrefix_first (d : List Char) (a : Nat) : memberPrefix d 1 <+: memberPrefix d a := by
  rw [memberPrefix, memberPrefix, prefix_append_right_inj, prefix_append_right_inj, if_pos rfl]
  exact prefix_append ['-'] _

theorem loopbackTag_inj {d : List Char} (same : loopbackTag d a = loopbackTag d b) : a = b := by
  have tails := append_cancel_left (append_cancel_left (String.ofList_injective same))
  split at tails <;> split at tails
  · omega
  · cases tails
  · cases tails
  · exact toDigits_inj (List.cons.inj tails).2

theorem memberPrefix_loopbackTag (d d' : List Char) (a b : Nat) :
    ¬ memberPrefix d a <+: (loopbackTag d' b).toList := by
  intro begins
  rw [loopbackTag, String.toList_ofList, memberPrefix] at begins
  have first : memberHead.take 16 <+: loopbackHead ++ (d' ++ if b = 1 then [] else '-' :: Nat.toDigits 10 b) :=
    (( take_prefix 16 memberHead).trans (prefix_append _ _)).trans begins
  have second : loopbackHead.take 16 <+: loopbackHead ++ (d' ++ if b = 1 then [] else '-' :: Nat.toDigits 10 b) :=
    ( take_prefix 16 loopbackHead).trans (prefix_append _ _)
  have same : memberHead.take 16 = loopbackHead.take 16 :=
    (prefix_of_prefix_length_le first second (by decide)).eq_of_length (by decide)
  exact absurd same (by decide)

section

variable {naming : Naming}

theorem digest_length (group : Group) : (digest naming group).length = 16 := by
  rw [digest, length_take, naming.long]
  rfl

theorem digest_lengths (a b : Group) : (digest naming a).length = (digest naming b).length :=
  (digest_length a).trans (digest_length b).symm

variable {others : List String} {prefixes : List (List Char)}

theorem conflicts_iff {candidate : List Char} : conflicts others prefixes candidate = true ↔
      (∃ tag ∈ others, candidate <+: tag.toList) ∨ ∃ existing ∈ prefixes, Comparable existing candidate := by
  simp only [conflicts, Bool.or_eq_true, any_eq_true, isPrefixOf_iff_prefix, Comparable]

/-- A name outside of all groups begins with the first private prefix of the digest. -/
def Barred (naming : Naming) (others : List String) (group : Group) : Prop :=
  ∃ tag ∈ others, memberPrefix (digest naming group) 1 <+: tag.toList

/-- The private prefixes of groups: one for each, apart from one another and from the tags of
the proxies in no group, and the first one of a digest wherever it is not barred. -/
structure Prefixes (naming : Naming) (others : List String) (groups : List Group)
    (prefixes : List (List Char)) : Prop where
  chosen : List.Forall₂ (fun group start => ∃ attempt, start = memberPrefix (digest naming group) attempt)
    groups prefixes
  free : ∀ start ∈ prefixes, ∀ tag ∈ others, ¬ start <+: tag.toList
  apart : Unrelated prefixes
  first : ∀ group ∈ groups, Barred naming others group ∨ memberPrefix (digest naming group) 1 ∈ prefixes

variable {groups : List Group} {start : List Char}

theorem Prefixes.origin (law : Prefixes naming others groups prefixes) (member : start ∈ prefixes) :
    ∃ group ∈ groups, ∃ attempt, start = memberPrefix (digest naming group) attempt := by
  obtain ⟨group, here, attempt, same⟩ := forall₂_exists (List.Forall₂.flip law.chosen) member
  exact ⟨group, here, attempt, same⟩

/-- Whether groups with one digest leave the first private prefix unused. -/
def Separated (naming : Naming) (others : List String) (groups : List Group) : Prop :=
  groups.Pairwise fun a b => digest naming a = digest naming b → Barred naming others a

theorem prefixes_nil : Prefixes naming others [] [] where
  chosen := .nil
  free := nofun
  apart := .nil
  first := nofun

variable {tries : Nat} {group : Group}

theorem Prefixes.add {after : List (List Char)} (law : Prefixes naming others groups prefixes)
    (added : addPrefix naming tries others prefixes group = some after) :
    Prefixes naming others (groups ++ [group]) after ∧
      ∀ earlier ∈ groups, digest naming earlier = digest naming group → Barred naming others earlier := by
  obtain ⟨attempt, found, rfl⟩ := Option.map_eq_some_iff.mp added
  obtain ⟨positive, clear, before⟩ := firstFree_eq_some found
  rw [Bool.eq_false_iff, ne_eq, conflicts_iff, not_or] at clear
  obtain ⟨untagged, unrelated⟩ := clear
  have fresh : ∀ earlier ∈ groups, digest naming earlier = digest naming group → Barred naming others earlier := by
    intro earlier member same
    rcases law.first earlier member with barred | used
    · exact barred
    · exact absurd ⟨_, used, .inl (same ▸ memberPrefix_first _ attempt)⟩ unrelated
  refine ⟨⟨?_, ?_, ?_, ?_⟩, fresh⟩
  · exact rel_append law.chosen (.cons ⟨attempt, rfl⟩ .nil)
  · intro start member tag other begins
    rcases List.mem_append.mp member with old | new
    · exact law.free start old tag other begins
    · obtain rfl := List.mem_singleton.mp new
      exact untagged ⟨tag, other, begins⟩
  · refine List.pairwise_append.mpr ⟨law.apart, pairwise_singleton _ _, fun start old other new => ?_⟩
    obtain rfl := List.mem_singleton.mp new
    exact ⟨fun low => unrelated ⟨start, old, .inl low⟩, fun high => unrelated ⟨start, old, .inr high⟩⟩
  · intro other member
    rcases List.mem_append.mp member with old | new
    · exact (law.first other old).imp_right (mem_append_left _)
    · obtain rfl := List.mem_singleton.mp new
      by_cases barred : Barred naming others other
      · exact .inl barred
      · -- The first attempt is free unless another group of the digest has it.
        refine .inr (mem_append_right _ (List.mem_singleton.mpr ?_))
        by_contra later
        have above : 1 < attempt := Nat.lt_of_le_of_ne positive fun one => later (one ▸ rfl)
        have taken := before 1 le_rfl above
        rw [conflicts_iff] at taken
        rcases taken with tagged | ⟨existing, used, related⟩
        · exact barred tagged
        · obtain ⟨earlier, inside, past, rfl⟩ := law.origin used
          have same := (memberPrefix_comparable (digest_lengths earlier other) related).1
          obtain ⟨tag, plain, begins⟩ := fresh earlier inside same
          exact barred ⟨tag, plain, same ▸ begins⟩

theorem Prefixes.add_isSome (law : Prefixes naming others groups prefixes)
    (fresh : ∀ earlier ∈ groups, digest naming earlier = digest naming group → Barred naming others earlier)
    (enough : others.length + prefixes.length + 1 < tries) :
    ∃ after, addPrefix naming tries others prefixes group = some after := by
  let start (attempt : Nat) := memberPrefix (digest naming group) attempt
  let obstacles : List (List Char ⊕ List Char) := others.map (.inl ∘ String.toList) ++ prefixes.map .inr
  let blocks (obstacle : List Char ⊕ List Char) (attempt : Nat) : Prop :=
    obstacle.elim (fun tag => start attempt <+: tag) fun existing => Comparable existing (start attempt)
  obtain ⟨tries, rfl⟩ : ∃ more, tries = more + 1 := ⟨tries - 1, by omega⟩
  have covers : ∀ k, 2 ≤ k → conflicts others prefixes (start k) = true → ∃ obstacle ∈ obstacles,
      blocks obstacle k := by
    intro k _ taken
    rcases conflicts_iff.mp taken with ⟨tag, member, begins⟩ | ⟨existing, member, related⟩
    · exact ⟨.inl tag.toList, mem_append_left _ (List.mem_map.mpr ⟨tag, member, rfl⟩), begins⟩
    · exact ⟨.inr existing, mem_append_right _ (List.mem_map.mpr ⟨existing, member, rfl⟩), related⟩
  have own {a b : Nat} (high : 2 ≤ a) (high' : 2 ≤ b) (related : Comparable (start a) (start b)) : a = b :=
    (memberPrefix_comparable rfl related).2 (by omega) (by omega)
  have only : ∀ obstacle ∈ obstacles, ∀ a b, 2 ≤ a → 2 ≤ b → blocks obstacle a → blocks obstacle b → a = b := by
    intro obstacle member a b high high' first second
    rcases List.mem_append.mp member with tagged | used
    · obtain ⟨tag, -, rfl⟩ := List.mem_map.mp tagged
      exact own high high' (comparable_of_begins first second)
    · obtain ⟨existing, listed, rfl⟩ := List.mem_map.mp used
      obtain ⟨earlier, inside, past, rfl⟩ := law.origin listed
      obtain ⟨same, exact⟩ := memberPrefix_comparable (digest_lengths earlier group) first
      -- The prefix of another group of this digest is not its first one, which is barred.
      have late : past ≠ 1 := by
        rintro rfl
        obtain ⟨tag, plain, begins⟩ := fresh earlier inside same
        exact law.free _ listed tag plain begins
      obtain ⟨-, exact'⟩ := memberPrefix_comparable (digest_lengths earlier group) second
      exact (exact late (by omega)).symm.trans (exact' late (by omega))
  have found : ∃ attempt, firstFree (fun attempt => conflicts others prefixes (start attempt)) (tries + 1) 1 =
      some attempt := by
    rw [firstFree]
    split
    · refine firstFree_isSome covers only ?_
      simp only [obstacles, length_append, length_map]
      omega
    · exact ⟨1, rfl⟩
  obtain ⟨attempt, found⟩ := found
  exact ⟨_, Option.map_eq_some_iff.mpr ⟨attempt, found, rfl⟩⟩

theorem memberPrefixes_snoc (tries : Nat) (others : List String) (groups : List Group) (group : Group) :
    memberPrefixes naming tries others (groups ++ [group]) =
      (memberPrefixes naming tries others groups).bind fun prefixes =>
        addPrefix naming tries others prefixes group := by
  rw [memberPrefixes, foldlM_append, ← memberPrefixes]
  refine congrArg (Option.bind _) (funext fun prefixes => ?_)
  rw [foldlM_cons]
  exact bind_pure _

theorem memberPrefixes_law (done : memberPrefixes naming tries others groups = some prefixes) :
    Prefixes naming others groups prefixes ∧ Separated naming others groups := by
  induction groups using List.reverseRecOn generalizing prefixes with
  | nil =>
    cases done
    exact ⟨prefixes_nil, .nil⟩
  | append_singleton groups group ih =>
    rw [memberPrefixes_snoc, Option.bind_eq_some_iff] at done
    obtain ⟨before, first, added⟩ := done
    obtain ⟨law, separated⟩ := ih first
    obtain ⟨law, fresh⟩ := law.add added
    refine ⟨law, List.pairwise_append.mpr ⟨separated, pairwise_singleton _ _, fun earlier member other new => ?_⟩⟩
    obtain rfl := List.mem_singleton.mp new
    exact fresh earlier member

theorem memberPrefixes_isSome (separated : Separated naming others groups)
    (enough : others.length + groups.length < tries) :
    ∃ prefixes, memberPrefixes naming tries others groups = some prefixes := by
  induction groups using List.reverseRecOn with
  | nil => exact ⟨[], rfl⟩
  | append_singleton groups group ih =>
    rw [length_append, length_singleton] at enough
    obtain ⟨separated, -, apart⟩ := List.pairwise_append.mp separated
    obtain ⟨before, first⟩ := ih separated (by omega)
    have law := (memberPrefixes_law first).1
    have counted : before.length = groups.length := law.chosen.length_eq.symm
    have more : others.length + before.length + 1 < tries := by omega
    obtain ⟨after, added⟩ := law.add_isSome (fun earlier member => apart earlier member group mem_cons_self) more
    exact ⟨after, by rw [memberPrefixes_snoc, first, Option.bind_some, added]⟩

/-- Groups of a document: each has its members once, and no two share one. -/
structure Disjoint (groups : List Group) : Prop where
  once : ∀ group ∈ groups, group.members.Nodup
  apart : groups.Pairwise fun a b => List.Disjoint a.members b.members

theorem groupTags_keys (pair : Group × List Char) : (groupTags pair).map Prod.fst = pair.1.members := by
  rw [groupTags, map_map]
  exact zipIdx_map_fst 1 _

theorem keys_nodup (disjoint : Disjoint groups) (lengths : groups.length = prefixes.length) :
    (((groups.zip prefixes).flatMap groupTags).map Prod.fst).Nodup := by
  have keys : ((groups.zip prefixes).flatMap groupTags).map Prod.fst = groups.flatMap Group.members := by
    rw [map_flatMap, flatMap_congr fun pair _ => groupTags_keys pair]
    conv_rhs => rw [← map_fst_zip lengths.le, flatMap_map]
  rw [keys, nodup_flatMap]
  exact ⟨disjoint.once, disjoint.apart⟩

variable {name : String}

theorem lookup_member (disjoint : Disjoint groups) (lengths : groups.length = prefixes.length)
    {pair : Group × List Char} (here : pair ∈ groups.zip prefixes) (member : name ∈ pair.1.members) :
    ∃ index, pair.1.members[index]? = some name ∧
      (memberTags groups prefixes).lookup name = some (memberTag pair.2 pair.1.members.length (1 + index)) := by
  obtain ⟨index, inside, same⟩ := List.mem_iff_getElem.mp member
  have placed : pair.1.members[index]? = some name := List.getElem?_eq_some_iff.mpr ⟨inside, same⟩
  refine ⟨index, placed, lookup_update (keys_nodup disjoint lengths) (List.mem_flatMap.mpr ⟨pair, here, ?_⟩)⟩
  exact List.mem_map.mpr ⟨(name, 1 + index), mk_add_mem_zipIdx_iff_getElem?.mpr placed, rfl⟩

theorem lookup_nonmember (outside : name ∉ groups.flatMap Group.members) :
    (memberTags groups prefixes).lookup name = none := by
  refine lookup_update_other fun listed => outside ?_
  rw [map_flatMap, flatMap_congr fun pair _ => groupTags_keys pair] at listed
  obtain ⟨pair, here, member⟩ := List.mem_flatMap.mp listed
  exact List.mem_flatMap.mpr ⟨pair.1, (of_mem_zip here).1, member⟩

/-- The tag in the document of the proxy with a name. -/
def tagOf (tags : List (String × String)) (name : String) : String :=
  (tags.lookup name).getD name

theorem prefix_memberTag (start : List Char) (count index : Nat) :
    start <+: (memberTag start count index).toList := by
  rw [memberTag, String.toList_ofList]
  exact prefix_append _ _

theorem memberTag_inj {count a b : Nat} (same : memberTag start count a = memberTag start count b) : a = b :=
  leftpad_toDigits_inj (append_cancel_left (String.ofList_injective same))

section Tags

variable {others : List String} {groups : List Group} {prefixes : List (List Char)}

variable {pair : Group × List Char}

theorem Prefixes.pair_unique (law : Prefixes naming others groups prefixes) {pair' : Group × List Char}
    (here : pair ∈ groups.zip prefixes) (here' : pair' ∈ groups.zip prefixes)
    (related : Comparable pair.2 pair'.2) :
    pair = pair' := by
  have apart : (groups.zip prefixes).Pairwise fun a b => ¬ Comparable a.2 b.2 := by
    have listed : ((groups.zip prefixes).map Prod.snd).Pairwise fun a b => ¬ a <+: b ∧ ¬ b <+: a := by
      rw [map_snd_zip law.chosen.length_eq.ge]
      exact law.apart
    exact (List.pairwise_map.mp listed).imp fun pair => not_or.mpr pair
  have symmetric : Std.Symm fun a b : Group × List Char => ¬ Comparable a.2 b.2 :=
    ⟨fun _ _ far near => far near.symm⟩
  by_contra differs
  exact apart.forall here here' differs related

theorem Prefixes.pair_of_group (law : Prefixes naming others groups prefixes) {group : Group}
    (member : group ∈ groups) :
    ∃ start, (group, start) ∈ groups.zip prefixes := by
  rw [← map_fst_zip law.chosen.length_eq.le] at member
  obtain ⟨⟨_, start⟩, here, rfl⟩ := List.mem_map.mp member
  exact ⟨start, here⟩

variable {name : String}

theorem Prefixes.begins (law : Prefixes naming others groups prefixes) (disjoint : Disjoint groups)
    (here : pair ∈ groups.zip prefixes) (member : name ∈ pair.1.members) :
    pair.2 <+: (tagOf (memberTags groups prefixes) name).toList := by
  obtain ⟨index, -, found⟩ := lookup_member disjoint law.chosen.length_eq here member
  rw [tagOf, found, Option.getD_some]
  exact prefix_memberTag _ _ _

theorem tagOf_nonmember (outside : name ∉ groups.flatMap Group.members) :
    tagOf (memberTags groups prefixes) name = name := by
  rw [tagOf, lookup_nonmember outside, Option.getD_none]

theorem Prefixes.begins_iff (law : Prefixes naming others groups prefixes) (disjoint : Disjoint groups)
    (here : pair ∈ groups.zip prefixes) (known : name ∉ groups.flatMap Group.members → name ∈ others) :
    pair.2 <+: (tagOf (memberTags groups prefixes) name).toList ↔ name ∈ pair.1.members := by
  refine ⟨fun begins => ?_, law.begins disjoint here⟩
  by_cases member : name ∈ groups.flatMap Group.members
  · obtain ⟨group, listed, member⟩ := List.mem_flatMap.mp member
    obtain ⟨start, here'⟩ := law.pair_of_group listed
    have same := law.pair_unique here here' (comparable_of_begins begins (law.begins disjoint here' member))
    exact same ▸ member
  · rw [tagOf_nonmember member] at begins
    exact absurd begins (law.free pair.2 (of_mem_zip here).2 name (known member))

theorem Prefixes.tagOf_inj (law : Prefixes naming others groups prefixes) (disjoint : Disjoint groups)
    {a b : String}
    (known : ∀ name ∈ [a, b], name ∉ groups.flatMap Group.members → name ∈ others)
    (same : tagOf (memberTags groups prefixes) a = tagOf (memberTags groups prefixes) b) : a = b := by
  have first := known a mem_cons_self
  have second := known b (mem_cons_of_mem _ mem_cons_self)
  by_cases member : a ∈ groups.flatMap Group.members
  · obtain ⟨group, listed, member⟩ := List.mem_flatMap.mp member
    obtain ⟨start, here⟩ := law.pair_of_group listed
    have also : b ∈ group.members :=
      (law.begins_iff disjoint here second).mp (same ▸ law.begins disjoint here member)
    obtain ⟨i, left, found⟩ := lookup_member disjoint law.chosen.length_eq here member
    obtain ⟨j, right, found'⟩ := lookup_member disjoint law.chosen.length_eq here also
    rw [tagOf, tagOf, found, found', Option.getD_some, Option.getD_some] at same
    have places : i = j := Nat.add_left_cancel (memberTag_inj same)
    subst places
    exact Option.some.inj (left.symm.trans right)
  · by_cases member' : b ∈ groups.flatMap Group.members
    · obtain ⟨group, listed, member'⟩ := List.mem_flatMap.mp member'
      obtain ⟨start, here⟩ := law.pair_of_group listed
      have also : a ∈ group.members :=
        (law.begins_iff disjoint here first).mp (same ▸ law.begins disjoint here member')
      exact absurd (List.mem_flatMap.mpr ⟨group, listed, also⟩) member
    · rwa [tagOf_nonmember member, tagOf_nonmember member'] at same

end Tags

/-- The loopback tags of groups, apart from one another and from the tags in use. -/
structure Loopbacks (naming : Naming) (occupied : List String) (groups : List Group)
    (loopbacks : List String) : Prop where
  chosen : List.Forall₂ (fun group tag => ∃ attempt, tag = loopbackTag (digest naming group) attempt)
    groups loopbacks
  distinct : loopbacks.Nodup
  free : ∀ tag ∈ loopbacks, tag ∉ occupied

theorem loopbackTags_snoc (tries : Nat) (occupied : List String) (groups : List Group) (group : Group) :
    loopbackTags naming tries occupied (groups ++ [group]) =
      (loopbackTags naming tries occupied groups).bind fun loopbacks =>
        addLoopback naming tries occupied loopbacks group := by
  rw [loopbackTags, foldlM_append, ← loopbackTags]
  refine congrArg (Option.bind _) (funext fun loopbacks => ?_)
  rw [foldlM_cons]
  exact bind_pure _

variable {occupied : List String}

theorem loopbackTags_law {loopbacks : List String}
    (done : loopbackTags naming tries occupied groups = some loopbacks) :
    Loopbacks naming occupied groups loopbacks := by
  induction groups using List.reverseRecOn generalizing loopbacks with
  | nil =>
    cases done
    exact ⟨.nil, nodup_nil, nofun⟩
  | append_singleton groups group ih =>
    rw [loopbackTags_snoc, Option.bind_eq_some_iff] at done
    obtain ⟨before, first, added⟩ := done
    obtain ⟨attempt, found, rfl⟩ := Option.map_eq_some_iff.mp added
    have law := ih first
    have clear := (firstFree_eq_some found).2.1
    rw [Bool.eq_false_iff, ne_eq, contains_iff_mem, mem_append, not_or] at clear
    refine ⟨rel_append law.chosen (.cons ⟨attempt, rfl⟩ .nil), ?_, fun tag member => ?_⟩
    · refine List.nodup_append.mpr ⟨law.distinct, pairwise_singleton _ _, fun tag member other new same => ?_⟩
      rw [List.mem_singleton.mp new] at same
      exact clear.2 (same ▸ member)
    · rcases List.mem_append.mp member with old | new
      · exact law.free tag old
      · exact List.mem_singleton.mp new ▸ clear.1

theorem loopbackTags_isSome (enough : occupied.length + groups.length < tries) :
    ∃ loopbacks, loopbackTags naming tries occupied groups = some loopbacks := by
  induction groups using List.reverseRecOn with
  | nil => exact ⟨[], rfl⟩
  | append_singleton groups group ih =>
    rw [length_append, length_singleton] at enough
    obtain ⟨before, first⟩ := ih (by omega)
    have counted : before.length = groups.length := (loopbackTags_law first).chosen.length_eq.symm
    have found : ∃ attempt, firstFree (fun attempt =>
        (occupied ++ before).contains (loopbackTag (digest naming group) attempt))
        tries 1 = some attempt := by
      let names (tag : String) (attempt : Nat) : Prop := tag = loopbackTag (digest naming group) attempt
      have covers : ∀ k, 1 ≤ k → (occupied ++ before).contains (loopbackTag (digest naming group) k) = true →
          ∃ tag ∈ occupied ++ before, names tag k := fun k _ taken => ⟨_, List.contains_iff_mem.mp taken, rfl⟩
      have only : ∀ tag ∈ occupied ++ before, ∀ a b, 1 ≤ a → 1 ≤ b → names tag a → names tag b → a = b :=
        fun tag _ a b _ _ first second => loopbackTag_inj (first.symm.trans second)
      refine firstFree_isSome covers only ?_
      rw [length_append]
      omega
    obtain ⟨attempt, found⟩ := found
    exact ⟨_, by rw [loopbackTags_snoc, first, Option.bind_some, addLoopback, found, Option.map_some]⟩

theorem readGroup_members {raw : Json} (read : readGroup raw = some group) : group.members.Nodup := by
  rw [readGroup.eq_def] at read
  split at read
  · split at read
    · split at read
      · cases read
      · rename_i formed
        rw [← Option.some.inj read]
        exact not_not.mp fun repeated => formed (.inr (.inr repeated))
    · cases read
  · cases read

theorem topologyGroups_law (proxies : List Fields) :
    ((topologyGroups proxies).map Group.tag).Nodup ∧ ∀ group ∈ topologyGroups proxies, group.members.Nodup := by
  rw [topologyGroups]
  induction proxies.flatMap rawGroups using List.reverseRecOn with
  | nil => exact ⟨nodup_nil, nofun⟩
  | append_singleton raws raw ih =>
    rw [foldl_append, foldl_cons, foldl_nil, addGroup]
    split
    · rename_i group read
      split
      · exact ih
      · rename_i fresh
        refine ⟨?_, fun other member => ?_⟩
        · rw [map_append, map_singleton]
          refine List.nodup_append.mpr ⟨ih.1, pairwise_singleton _ _, fun tag member other new same => ?_⟩
          rw [List.mem_singleton.mp new] at same
          exact fresh (same ▸ member)
        · rcases List.mem_append.mp member with old | new
          · exact ih.2 other old
          · exact List.mem_singleton.mp new ▸ readGroup_members read
    · exact ih

/-- Proxies with distinct names whose groups take their members from these names and share none. -/
structure Valid (naming : Naming) (proxies : List Fields) : Prop where
  names : (proxies.map (nameOf naming)).Nodup
  members : ∀ group ∈ topologyGroups proxies, ∀ name ∈ group.members, name ∈ proxies.map (nameOf naming)
  apart : (topologyGroups proxies).Pairwise fun a b => List.Disjoint a.members b.members

variable {proxies : List Fields}

theorem Valid.disjoint (valid : Valid naming proxies) : Disjoint (topologyGroups proxies) :=
  ⟨(topologyGroups_law proxies).2, valid.apart⟩

theorem mem_nonmembers : name ∈ nonmembers naming proxies ↔
      name ∈ proxies.map (nameOf naming) ∧ name ∉ (topologyGroups proxies).flatMap Group.members := by
  rw [nonmembers, mem_filter, decide_eq_true_eq]

theorem ordered_perm (proxies : List Fields) : (ordered proxies).Perm proxies := by
  have split := filter_append_perm (fun proxy => !(valueAt "_open_node_hidden" proxy).truthy) proxies
  simpa only [ordered, Bool.not_not] using split

/-- What the document of valid proxies has: its balancers select exactly their groups, its
loopbacks lead to them, and its dialers are tags of it. -/
structure DocumentLaw (naming : Naming) (proxies : List Fields) (doc : Document) : Prop where
  distinct : (doc.outbounds.map Outbound.tag).Nodup
  balanced : doc.balancers.map Balancer.tag = (topologyGroups proxies).map Group.tag
  selects : ∀ (i : Nat) (group : Group) (balancer : Balancer),
    (topologyGroups proxies)[i]? = some group → doc.balancers[i]? = some balancer →
    ∀ (k : Nat) (outbound : Outbound), doc.outbounds[k]? = some outbound →
      (balancer.selector.toList <+: outbound.tag.toList ↔
        ∃ proxy, (ordered proxies)[k]? = some proxy ∧ nameOf naming proxy ∈ group.members)
  leads : ∀ group ∈ topologyGroups proxies, ∃ tag inbound, Outbound.loopback tag inbound ∈ doc.outbounds ∧
    inbound ∉ doc.inbounds ∧ (∃ rule ∈ doc.rules, rule.inboundTag = inbound) ∧
    ∀ rule ∈ doc.rules, rule.inboundTag = inbound → rule.balancerTag = group.tag
  dials : ∀ (k : Nat) (proxy : Fields) (dialer : String),
    (ordered proxies)[k]? = some proxy → valueAt "dialer-proxy" proxy = .str dialer →
    dialer ∈ (topologyGroups proxies).map Group.tag ∨ dialer ∈ (topologyGroups proxies).flatMap Group.members →
    ∃ tag chosen body, doc.outbounds[k]? = some (.proxy tag (some chosen) body) ∧
      chosen ∈ doc.outbounds.map Outbound.tag ∧
      (dialer ∈ (topologyGroups proxies).map Group.tag →
        ∃ inbound, Outbound.loopback chosen inbound ∈ doc.outbounds ∧ ⟨inbound, dialer⟩ ∈ doc.rules)

/-- The parts of a rendered document. -/
structure Rendered (naming : Naming) (proxies : List Fields) (doc : Document) (prefixes : List (List Char))
    (loopbacks : List String) (converted : List Outbound) : Prop where
  members : Prefixes naming (nonmembers naming proxies) (topologyGroups proxies) prefixes
  loops : Loopbacks naming
    (nonmembers naming proxies ++ (memberTags (topologyGroups proxies) prefixes).map Prod.snd)
      (topologyGroups proxies) loopbacks
  each : List.Forall₂ (fun proxy outbound => convert naming (memberTags (topologyGroups proxies) prefixes)
    (((topologyGroups proxies).map Group.tag).zip loopbacks) proxy = some outbound) (ordered proxies) converted
  whole : doc =
    { inbounds := ["socks-in"]
      outbounds := converted ++ loopbacks.map fun tag => .loopback tag (inboundTag tag)
      rules := ((topologyGroups proxies).zip loopbacks).map fun pair =>
        { inboundTag := inboundTag pair.2, balancerTag := pair.1.tag }
      balancers := ((topologyGroups proxies).zip prefixes).map fun pair =>
        { tag := pair.1.tag, selector := String.ofList pair.2 } }

theorem renderXray_document {doc : Document} (done : renderXray naming tries proxies = some (.document doc)) :
    ∃ prefixes loopbacks converted, Rendered naming proxies doc prefixes loopbacks converted := by
  rw [renderXray, Option.bind_eq_bind, Option.bind_eq_some_iff] at done
  obtain ⟨prefixes, first, done⟩ := done
  obtain ⟨loopbacks, second, done⟩ := Option.bind_eq_some_iff.mp done
  split at done
  · cases done
  · rename_i converted mapped
    cases done
    exact ⟨prefixes, loopbacks, converted, (memberPrefixes_law first).1, loopbackTags_law second,
      mapM_some mapped, rfl⟩

section Rendering

variable {proxies : List Fields} {doc : Document} {prefixes : List (List Char)} {loopbacks : List String}
  {converted : List Outbound}

variable {proxy : Fields} {outbound : Outbound}

theorem convert_tag {tags loopbacks : List (String × String)}
    (done : convert naming tags loopbacks proxy = some outbound) :
    ∃ body, outbound = .proxy (tagOf tags (nameOf naming proxy)) (dialerOf naming tags loopbacks proxy) body := by
  obtain ⟨body, -, rfl⟩ := Option.map_eq_some_iff.mp done
  exact ⟨body, rfl⟩

theorem front_tags {tags loopbacks : List (String × String)} {proxies : List Fields} {converted : List Outbound}
    (each : List.Forall₂ (fun proxy outbound => convert naming tags loopbacks proxy = some outbound) proxies
      converted) :
    converted.map Outbound.tag = proxies.map (tagOf tags ∘ nameOf naming) := by
  induction each with
  | nil => rfl
  | cons done _ ih =>
    obtain ⟨body, rfl⟩ := convert_tag done
    rw [map_cons, map_cons, ih]
    rfl

theorem Rendered.tags (rendered : Rendered naming proxies doc prefixes loopbacks converted) :
    doc.outbounds.map Outbound.tag =
      (ordered proxies).map (tagOf (memberTags (topologyGroups proxies) prefixes) ∘ nameOf naming) ++
        loopbacks := by
  have back : (loopbacks.map fun tag => Outbound.loopback tag (inboundTag tag)).map Outbound.tag = loopbacks := by
    rw [map_map]
    exact map_id _
  rw [rendered.whole, map_append, front_tags rendered.each, back]

theorem mem_names (member : proxy ∈ ordered proxies) :
    nameOf naming proxy ∉ (topologyGroups proxies).flatMap Group.members →
      nameOf naming proxy ∈ nonmembers naming proxies :=
  fun outside => mem_nonmembers.mpr ⟨List.mem_map.mpr ⟨proxy, (ordered_perm proxies).mem_iff.mp member,
    rfl⟩, outside⟩

variable {groups : List Group} {others : List String}

theorem tagOf_occupied {name : String} (known : (memberTags groups prefixes).lookup name = none → name ∈ others) :
    tagOf (memberTags groups prefixes) name ∈ others ++ (memberTags groups prefixes).map Prod.snd := by
  rw [tagOf]
  cases found : (memberTags groups prefixes).lookup name with
  | none => exact mem_append_left _ (known found)
  | some tag =>
    obtain ⟨before, after, split, -⟩ := List.lookup_eq_some_iff.mp found
    refine mem_append_right _ (List.mem_map.mpr ⟨(name, tag), ?_, rfl⟩)
    rw [split]
    exact mem_append_right _ mem_cons_self

theorem Rendered.distinct (rendered : Rendered naming proxies doc prefixes loopbacks converted)
    (valid : Valid naming proxies) :
    (doc.outbounds.map Outbound.tag).Nodup := by
  have law := rendered.members
  have names : ((ordered proxies).map (nameOf naming)).Nodup :=
    ((ordered_perm proxies).map _).nodup_iff.mpr valid.names
  rw [rendered.tags, nodup_append]
  refine ⟨?_, rendered.loops.distinct, fun tag front other back same => ?_⟩
  · rw [← map_map]
    refine names.map_on fun a first b second same => law.tagOf_inj valid.disjoint ?_ same
    intro name either outside
    have listed : name ∈ (ordered proxies).map (nameOf naming) := by
      rcases List.mem_cons.mp either with rfl | either
      · exact first
      · rw [List.mem_singleton.mp either]
        exact second
    exact mem_nonmembers.mpr ⟨((ordered_perm proxies).map _).mem_iff.mp listed, outside⟩
  · obtain ⟨proxy, member, rfl⟩ := List.mem_map.mp front
    refine rendered.loops.free other back (same ▸ tagOf_occupied fun none => ?_)
    refine mem_names member fun inside => ?_
    obtain ⟨group, listed, inside⟩ := List.mem_flatMap.mp inside
    obtain ⟨start, here⟩ := law.pair_of_group listed
    obtain ⟨_, -, found⟩ := lookup_member valid.disjoint law.chosen.length_eq here inside
    rw [none] at found
    cases found

theorem Rendered.balanced (rendered : Rendered naming proxies doc prefixes loopbacks converted) :
    doc.balancers.map Balancer.tag = (topologyGroups proxies).map Group.tag := by
  rw [rendered.whole, map_map]
  conv_rhs => rw [← map_fst_zip rendered.members.chosen.length_eq.le, map_map]
  rfl

variable {group : Group}

theorem Rendered.selects (rendered : Rendered naming proxies doc prefixes loopbacks converted)
    (valid : Valid naming proxies) {i k : Nat} {balancer : Balancer}
    (listed : (topologyGroups proxies)[i]? = some group) (balances : doc.balancers[i]? = some balancer)
    (stands : doc.outbounds[k]? = some outbound) :
    balancer.selector.toList <+: outbound.tag.toList ↔
      ∃ proxy, (ordered proxies)[k]? = some proxy ∧ nameOf naming proxy ∈ group.members := by
  have law := rendered.members
  -- The balancer has the prefix of the group.
  rw [rendered.whole, List.getElem?_map, Option.map_eq_some_iff] at balances
  obtain ⟨⟨other, start⟩, here, rfl⟩ := balances
  rw [List.getElem?_zip_eq_some] at here
  obtain ⟨same, begins⟩ := here
  obtain rfl : other = group := Option.some.inj (same.symm.trans listed)
  have pair : (other, start) ∈ (topologyGroups proxies).zip prefixes :=
    mem_of_getElem? (List.getElem?_zip_eq_some.mpr ⟨listed, begins⟩)
  rw [String.toList_ofList]
  -- The tag is one of a proxy or of a loopback.
  have tagged : (doc.outbounds.map Outbound.tag)[k]? = some outbound.tag := by
    rw [List.getElem?_map, stands, Option.map_some]
  rw [rendered.tags] at tagged
  by_cases front : k < (ordered proxies).length
  · have inside : (ordered proxies)[k]? = some (ordered proxies)[k] := List.getElem?_eq_getElem front
    rw [List.getElem?_append_left (by rwa [length_map]), List.getElem?_map, inside, Option.map_some,
      Option.some.injEq] at tagged
    rw [← tagged, Function.comp_apply, law.begins_iff valid.disjoint pair (mem_names (getElem_mem front))]
    constructor
    · exact fun member => ⟨_, inside, member⟩
    · rintro ⟨proxy, found, member⟩
      exact Option.some.inj (inside.symm.trans found) ▸ member
  · rw [List.getElem?_append_right (by rw [length_map]; omega)] at tagged
    obtain ⟨chosen, -, attempt, same⟩ :=
      forall₂_exists (List.Forall₂.flip rendered.loops.chosen) (mem_of_getElem? tagged)
    obtain ⟨_, -, attempt', same'⟩ := law.origin (of_mem_zip pair).2
    constructor
    · rw [same, same']
      exact fun begins => absurd begins (memberPrefix_loopbackTag _ _ _ _)
    · rintro ⟨proxy, found, -⟩
      exact absurd (List.getElem?_eq_some_iff.mp found).1 front

theorem inboundTag_inj {a b : String} (same : inboundTag a = inboundTag b) : a = b :=
  String.toList_injective (append_cancel_right (String.ofList_injective same))

variable {occupied : List String}

theorem Loopbacks.leads (law : Loopbacks naming occupied groups loopbacks) {pair pair' : Group × String}
    (here : pair ∈ groups.zip loopbacks) (here' : pair' ∈ groups.zip loopbacks)
    (same : inboundTag pair.2 = inboundTag pair'.2) : pair = pair' := by
  have distinct : ((groups.zip loopbacks).map Prod.snd).Nodup := by
    rw [map_snd_zip law.chosen.length_eq.ge]
    exact law.distinct
  exact inj_on_of_nodup_map distinct here here' (inboundTag_inj same)

theorem Loopbacks.of_group (law : Loopbacks naming occupied groups loopbacks) (member : group ∈ groups) :
    ∃ tag, (group, tag) ∈ groups.zip loopbacks := by
  rw [← map_fst_zip law.chosen.length_eq.le] at member
  obtain ⟨⟨_, tag⟩, here, rfl⟩ := List.mem_map.mp member
  exact ⟨tag, here⟩

variable {tag : String}

theorem Loopbacks.inbound (law : Loopbacks naming occupied groups loopbacks) (member : tag ∈ loopbacks) :
    inboundTag tag ∉ ["socks-in"] := by
  obtain ⟨group, -, attempt, rfl⟩ := forall₂_exists (List.Forall₂.flip law.chosen) member
  intro reserved
  have lengths := congrArg (List.length ∘ String.toList) (List.mem_singleton.mp reserved)
  have head : loopbackHead.length = 24 := by decide
  have short : "socks-in".toList.length = 8 := by decide
  simp only [Function.comp_apply, inboundTag, loopbackTag, String.toList_ofList, length_append, head,
    short] at lengths
  omega

theorem Rendered.leads (rendered : Rendered naming proxies doc prefixes loopbacks converted)
    (member : group ∈ topologyGroups proxies) :
    ∃ tag inbound, Outbound.loopback tag inbound ∈ doc.outbounds ∧ inbound ∉ doc.inbounds ∧
      (∃ rule ∈ doc.rules, rule.inboundTag = inbound) ∧
      ∀ rule ∈ doc.rules, rule.inboundTag = inbound → rule.balancerTag = group.tag := by
  obtain ⟨tag, here⟩ := rendered.loops.of_group member
  have listed := (of_mem_zip here).2
  rw [rendered.whole]
  refine ⟨tag, inboundTag tag, ?_, rendered.loops.inbound listed, ?_, ?_⟩
  · exact mem_append_right _ (List.mem_map.mpr ⟨tag, listed, rfl⟩)
  · exact ⟨_, List.mem_map.mpr ⟨(group, tag), here, rfl⟩, rfl⟩
  · intro rule found same
    obtain ⟨pair, here', rfl⟩ := List.mem_map.mp found
    rw [rendered.loops.leads here' here same]

variable {start : List Char}

theorem ne_empty_of_begins (begins : start <+: tag.toList) (long : start ≠ []) : tag ≠ "" := by
  rintro rfl
  exact long (List.prefix_nil.mp begins)

theorem Prefixes.ne_nil (law : Prefixes naming others groups prefixes) (member : start ∈ prefixes) :
    start ≠ [] := by
  obtain ⟨group, -, attempt, rfl⟩ := law.origin member
  intro empty
  exact absurd (List.append_eq_nil_iff.mp empty).1 (by decide)

theorem Loopbacks.ne_empty (law : Loopbacks naming occupied groups loopbacks) (member : tag ∈ loopbacks) :
    tag ≠ "" := by
  obtain ⟨group, -, attempt, rfl⟩ := forall₂_exists (List.Forall₂.flip law.chosen) member
  refine ne_empty_of_begins ?_ (by decide : loopbackHead ≠ [])
  rw [loopbackTag, String.toList_ofList]
  exact prefix_append _ _

variable {dialer : String}

section

variable (rendered : Rendered naming proxies doc prefixes loopbacks converted)
include rendered

theorem Rendered.dials_group
    (dials : valueAt "dialer-proxy" proxy = .str dialer) (named : dialer ∈ (topologyGroups proxies).map Group.tag) :
    ∃ chosen, dialerOf naming (memberTags (topologyGroups proxies) prefixes)
        (((topologyGroups proxies).map Group.tag).zip loopbacks) proxy = some chosen ∧
      chosen ∈ loopbacks ∧ ⟨inboundTag chosen, dialer⟩ ∈ doc.rules := by
  have lengths : ((topologyGroups proxies).map Group.tag).length = loopbacks.length := by
    rw [length_map, rendered.loops.chosen.length_eq]
  have keys : dialer ∈ (((topologyGroups proxies).map Group.tag).zip loopbacks).map Prod.fst := by
    rwa [map_fst_zip lengths.le]
  obtain ⟨entry, listed, rfl⟩ := List.mem_map.mp keys
  have found : ((((topologyGroups proxies).map Group.tag).zip loopbacks).lookup entry.1).isSome = true :=
    List.lookup_isSome_iff.mpr ⟨entry, listed, beq_self_eq_true _⟩
  obtain ⟨chosen, found⟩ := Option.isSome_iff_exists.mp found
  obtain ⟨before, after, split, -⟩ := List.lookup_eq_some_iff.mp found
  have here : (entry.1, chosen) ∈ ((topologyGroups proxies).map Group.tag).zip loopbacks := by
    rw [split]
    exact mem_append_right _ mem_cons_self
  have member := (of_mem_zip here).2
  refine ⟨chosen, ?_, member, ?_⟩
  · rw [dialerOf, dials]
    simp only [found, Option.some_or, Option.getD_some, if_neg (rendered.loops.ne_empty member)]
  · rw [zip_map_left] at here
    obtain ⟨pair, inside, same⟩ := List.mem_map.mp here
    obtain ⟨tagged, rfl⟩ := Prod.mk.inj same
    rw [rendered.whole, ← tagged]
    exact List.mem_map.mpr ⟨pair, inside, rfl⟩

theorem Rendered.dials_member
    (valid : Valid naming proxies) (dials : valueAt "dialer-proxy" proxy = .str dialer)
    (plain : dialer ∉ (topologyGroups proxies).map Group.tag)
    (named : dialer ∈ (topologyGroups proxies).flatMap Group.members) :
    ∃ chosen, dialerOf naming (memberTags (topologyGroups proxies) prefixes)
        (((topologyGroups proxies).map Group.tag).zip loopbacks) proxy = some chosen ∧
      chosen ∈ doc.outbounds.map Outbound.tag := by
  have law := rendered.members
  obtain ⟨group, listed, member⟩ := List.mem_flatMap.mp named
  obtain ⟨start, here⟩ := law.pair_of_group listed
  obtain ⟨index, -, found⟩ := lookup_member valid.disjoint law.chosen.length_eq here member
  have missing : (((topologyGroups proxies).map Group.tag).zip loopbacks).lookup dialer = none := by
    rw [lookup_eq_none_iff]
    intro entry inside
    rw [bne_iff_ne]
    exact fun same => plain (same ▸ (of_mem_zip inside).1)
  have long := law.ne_nil (of_mem_zip here).2
  refine ⟨tagOf (memberTags (topologyGroups proxies) prefixes) dialer, ?_, ?_⟩
  · rw [dialerOf, dials]
    simp only [missing, Option.none_or, tagOf, found, Option.getD_some,
      if_neg (ne_empty_of_begins (prefix_memberTag start _ _) long)]
  · obtain ⟨target, known, rfl⟩ := List.mem_map.mp (valid.members group listed dialer member)
    rw [rendered.tags]
    exact mem_append_left _ (List.mem_map.mpr ⟨target, (ordered_perm proxies).mem_iff.mpr known, rfl⟩)

theorem Rendered.dials (valid : Valid naming proxies)
    {k : Nat} {proxy : Fields} {dialer : String} (stands : (ordered proxies)[k]? = some proxy)
    (dials : valueAt "dialer-proxy" proxy = .str dialer)
    (named : dialer ∈ (topologyGroups proxies).map Group.tag ∨
      dialer ∈ (topologyGroups proxies).flatMap Group.members) :
    ∃ tag chosen body, doc.outbounds[k]? = some (.proxy tag (some chosen) body) ∧
      chosen ∈ doc.outbounds.map Outbound.tag ∧
      (dialer ∈ (topologyGroups proxies).map Group.tag →
        ∃ inbound, Outbound.loopback chosen inbound ∈ doc.outbounds ∧ ⟨inbound, dialer⟩ ∈ doc.rules) := by
  obtain ⟨outbound, placed, done⟩ := Table.forall₂_row rendered.each stands
  obtain ⟨body, rfl⟩ := convert_tag done
  have front : doc.outbounds[k]? = converted[k]? := by
    rw [rendered.whole]
    exact List.getElem?_append_left (List.getElem?_eq_some_iff.mp placed).1
  rw [placed] at front
  by_cases group : dialer ∈ (topologyGroups proxies).map Group.tag
  · obtain ⟨chosen, same, member, leads⟩ := rendered.dials_group dials group
    rw [same] at front
    refine ⟨_, chosen, body, front, ?_, fun _ => ⟨inboundTag chosen, ?_, leads⟩⟩
    · rw [rendered.tags]
      exact mem_append_right _ member
    · rw [rendered.whole]
      exact mem_append_right _ (List.mem_map.mpr ⟨chosen, member, rfl⟩)
  · obtain ⟨chosen, same, member⟩ := rendered.dials_member valid dials group (named.resolve_left group)
    rw [same] at front
    exact ⟨_, chosen, body, front, member, fun other => absurd other group⟩

theorem Rendered.law (valid : Valid naming proxies) : DocumentLaw naming proxies doc where
  distinct := rendered.distinct valid
  balanced := rendered.balanced
  selects _ _ _ listed balances _ _ stands := rendered.selects valid listed balances stands
  leads _ member := rendered.leads member
  dials _ _ _ stands dials named := rendered.dials valid stands dials named

end

end Rendering

/-- The rendering ends, with a document that keeps the law unless a proxy has no outbound. -/
def Selects (naming : Naming) (proxies : List Fields) : Prop :=
  ∃ tries outcome, renderXray naming tries proxies = some outcome ∧
    (outcome = .raised → ∃ proxy ∈ proxies, naming.body proxy = none) ∧
    ∀ doc, outcome = .document doc → DocumentLaw naming proxies doc

theorem mapM_none {f : Fields → Option Outbound} {items : List Fields} (failed : items.mapM f = none) :
    ∃ item ∈ items, f item = none := by
  induction items with
  | nil => cases failed
  | cons item rest ih =>
    cases first : f item with
    | none => exact ⟨item, mem_cons_self, first⟩
    | some outbound =>
      rw [mapM_cons, first] at failed
      cases others : rest.mapM f with
      | none =>
        obtain ⟨found, member, none⟩ := ih others
        exact ⟨found, mem_cons_of_mem _ member, none⟩
      | some outbounds =>
        rw [others] at failed
        cases failed

theorem length_memberTags_le (lengths : groups.length = prefixes.length) :
    (memberTags groups prefixes).length ≤ (groups.flatMap Group.members).length := by
  refine (length_update_le [] _).trans_eq ?_
  have counted : (groups.zip prefixes).map (fun pair => (groupTags pair).length) =
      groups.map fun group => group.members.length := by
    conv_rhs => rw [← map_fst_zip lengths.le, map_map]
    refine map_congr_left fun pair _ => ?_
    rw [← length_map Prod.fst, groupTags_keys]
    rfl
  rw [length_nil, Nat.zero_add, length_flatMap, length_flatMap, counted]

theorem selects_of_separated (valid : Valid naming proxies)
    (separated : Separated naming (nonmembers naming proxies) (topologyGroups proxies)) :
    Selects naming proxies := by
  -- So many tries are enough for both loops.
  obtain ⟨tries, enough⟩ : ∃ tries, (nonmembers naming proxies).length +
      ((topologyGroups proxies).flatMap Group.members).length + (topologyGroups proxies).length < tries :=
    ⟨_, Nat.lt_succ_self _⟩
  have prefixed : (nonmembers naming proxies).length + (topologyGroups proxies).length < tries := by omega
  obtain ⟨prefixes, first⟩ := memberPrefixes_isSome separated prefixed
  have tagged := length_memberTags_le (memberPrefixes_law first).1.chosen.length_eq
  have looped : (nonmembers naming proxies ++ (memberTags (topologyGroups proxies) prefixes).map Prod.snd).length +
      (topologyGroups proxies).length < tries := by
    rw [length_append, length_map]
    omega
  obtain ⟨loopbacks, second⟩ : ∃ loopbacks, loopbackTags naming tries _ (topologyGroups proxies) = some loopbacks :=
    loopbackTags_isSome looped
  have ends : ∃ outcome, renderXray naming tries proxies = some outcome ∧
      (outcome = .raised → ∃ proxy ∈ proxies, naming.body proxy = none) := by
    simp only [renderXray, first, second, Option.bind_eq_bind, Option.bind_some]
    split
    · rename_i failed
      refine ⟨.raised, rfl, fun _ => ?_⟩
      obtain ⟨proxy, member, none⟩ := mapM_none failed
      exact ⟨proxy, (ordered_perm proxies).mem_iff.mp member, Option.map_eq_none_iff.mp none⟩
    · exact ⟨_, rfl, nofun⟩
  obtain ⟨outcome, done, raised⟩ := ends
  refine ⟨tries, outcome, done, raised, fun doc same => ?_⟩
  obtain ⟨prefixes, loopbacks, converted, rendered⟩ := renderXray_document (same ▸ done)
  exact rendered.law valid

theorem separated_of_ends {outcome : Outcome} (done : renderXray naming tries proxies = some outcome) :
    Separated naming (nonmembers naming proxies) (topologyGroups proxies) := by
  rw [renderXray, Option.bind_eq_bind, Option.bind_eq_some_iff] at done
  obtain ⟨prefixes, first, -⟩ := done
  exact (memberPrefixes_law first).2

theorem selects_iff (valid : Valid naming proxies) :
    Selects naming proxies ↔ Separated naming (nonmembers naming proxies) (topologyGroups proxies) :=
  ⟨fun ⟨_, _, done, _⟩ => separated_of_ends done, selects_of_separated valid⟩

end

/-- Rendering proxies with load-balanced groups ends, and its document selects exactly the
groups, if and only if a name outside of all groups bars the first private prefix of every
digest that two groups share. -/
theorem xrayBalance_law (naming : Naming) (proxies : List Fields) (valid : Valid naming proxies) :
    Selects naming proxies ↔ Separated naming (nonmembers naming proxies) (topologyGroups proxies) :=
  selects_iff valid

def node (name : String) : Fields :=
  [("name", .str name)]

def balanced (name tag : String) (members : List String) : Fields :=
  [("name", .str name),
   ("_open_node_proxy_groups", .arr [.obj [("name", .str tag), ("proxies", .arr (members.map .str))]])]

/-- The digests of three tags; the first two begin with the same sixteen digits. -/
def sampleHex (tag : String) : List Char :=
  if tag = "balance-47321c4ddc1b69a4" then "a944b983da946bb32b430642976a758d92759af2c93fd5be7ee2d1ff159dd7b1".toList
  else if tag = "balance-64d7e7a02f9aa2aa" then
    "a944b983da946bb3ea1bb02fedea87bd59a45298f2b6f53a5bf7b48ba7e7981e".toList
  else if tag = "balance" then "5751e048eb6fee3eb9bb4ea70f107f19c35863766bee5100044e52ab60d9edcf".toList
  else List.replicate 64 '0'

def sampleNaming : Naming where
  hex := sampleHex
  long text := by
    rw [sampleHex]
    split
    · decide +kernel
    split
    · decide +kernel
    split
    · decide +kernel
    · rfl
  str _ := ""
  body _ := some .null

theorem xrayBalance_law_balance :
    Selects sampleNaming [balanced "a" "balance" ["a", "b"], node "b", node "c"] := by
  have groups : topologyGroups [balanced "a" "balance" ["a", "b"], node "b", node "c"] =
      [⟨"balance", ["a", "b"]⟩] := by
    decide +kernel
  have valid : Valid sampleNaming [balanced "a" "balance" ["a", "b"], node "b", node "c"] := by
    refine ⟨by decide +kernel, ?_, ?_⟩
    · rw [groups]
      decide +kernel
    · rw [groups]
      exact pairwise_singleton _ _
  refine (xrayBalance_law sampleNaming _ valid).mpr ?_
  rw [groups]
  exact pairwise_singleton _ _

def collidingProxies : List Fields :=
  [balanced "a" "balance-47321c4ddc1b69a4" ["a", "b"], node "b",
   balanced "c" "balance-64d7e7a02f9aa2aa" ["c", "d"], node "d"]

theorem collidingProxies_groups : topologyGroups collidingProxies =
      [⟨"balance-47321c4ddc1b69a4", ["a", "b"]⟩, ⟨"balance-64d7e7a02f9aa2aa", ["c", "d"]⟩] := by
  decide +kernel

/-- Two groups with one digest: the rendering does not end. -/
theorem collidingProxies_not_selects : Valid sampleNaming collidingProxies ∧
    ¬ Selects sampleNaming collidingProxies := by
  have valid : Valid sampleNaming collidingProxies := by
    refine ⟨by decide +kernel, ?_, ?_⟩
    · rw [collidingProxies_groups]
      decide +kernel
    · rw [collidingProxies_groups]
      refine List.pairwise_pair.mpr fun name first second => ?_
      simp only [mem_cons, not_mem_nil, or_false] at first second
      rcases first with rfl | rfl <;> revert second <;> decide
  refine ⟨valid, fun selects => ?_⟩
  have separated := (selects_iff valid).mp selects
  have others : nonmembers sampleNaming collidingProxies = [] := by decide +kernel
  rw [collidingProxies_groups, others] at separated
  have same : digest sampleNaming ⟨"balance-47321c4ddc1b69a4", ["a", "b"]⟩ =
      digest sampleNaming ⟨"balance-64d7e7a02f9aa2aa", ["c", "d"]⟩ := by
    decide +kernel
  obtain ⟨tag, member, -⟩ := rel_of_pairwise_cons separated mem_cons_self same
  cases member

end OpenNode.XrayBalance
