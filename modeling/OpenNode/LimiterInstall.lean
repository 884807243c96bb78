import OpenNode.LimiterManager
import OpenNode.Lib.Tally
import OpenNode.Lib.Table
import OpenNode.Lib.Dict

namespace OpenNode.NodeLimits

open Function List Tally

variable {F : Type}

theorem foldlM_keeps {α β : Type} {f : α → β → Option α} {P : α → Prop}
    (step : ∀ a b c, P a → f a b = some c → P c) {entries : List β} {a c : α} (start : P a)
    (run : entries.foldlM f a = some c) : P c := by
  induction entries generalizing a with
  | nil => exact Option.some.inj run ▸ start
  | cons b rest ih =>
    rw [foldlM_cons] at run
    obtain ⟨next, first, later⟩ := Option.bind_eq_some_iff.mp run
    exact ih (step a b next start first) later

variable {tag : String}

theorem key_inj {email tag' email' : String} (clean : '\x00' ∉ tag'.toList) (clean' : '\x00' ∉ email'.toList)
    (same : key tag email = key tag' email') : tag = tag' ∧ email = email' := by
  have lists : tag.toList ++ '\x00' :: email.toList = tag'.toList ++ '\x00' :: email'.toList := by
    have := congrArg String.toList same
    simpa [key] using this
  have parts : tag.toList = tag'.toList ∧ email.toList = email'.toList := by
    rcases List.append_eq_append_iff.mp lists with ⟨rest, tags, emails⟩ | ⟨rest, tags, emails⟩
    · cases rest with
      | nil =>
        refine ⟨by simpa using tags.symm, ?_⟩
        simpa using emails
      | cons c rest =>
        obtain ⟨rfl, _⟩ := List.cons.inj emails
        exact absurd (tags ▸ mem_append_right _ mem_cons_self) clean
    · cases rest with
      | nil =>
        refine ⟨by simpa using tags, ?_⟩
        simpa using emails.symm
      | cons c rest =>
        obtain ⟨rfl, tail⟩ := List.cons.inj emails
        exact absurd (tail ▸ mem_append_right _ mem_cons_self) clean'
  exact ⟨String.toList_inj.mp parts.1, String.toList_inj.mp parts.2⟩

theorem textOK_clean {value : String} (ok : textOK value = true) : '\x00' ∉ value.toList := by
  intro member
  simp only [textOK, Bool.and_eq_true, Bool.not_eq_true', any_eq_false] at ok
  have := ok.2 _ member
  simp at this

/-- The assignments that `install` makes to the map of users. -/
def Document.userEntries (d : Document F) : List (String × User F) :=
  d.inbounds.flatMap fun p => p.users.map fun u => (key p.inboundTag u.email, u)

namespace Manager

theorem foldl_installUser (tag : String) (users : List (User F)) (m : Manager F) :
    ∃ caps, users.foldl (installUser tag) m = { m with
        users := (users.map fun u => (key tag u.email, u)).foldl assign m.users
        caps := caps } := by
  induction users generalizing m with
  | nil => exact ⟨m.caps, rfl⟩
  | cons u rest ih =>
    obtain ⟨caps, done⟩ := ih (installUser tag m u)
    exact ⟨caps, done⟩

theorem foldl_installPolicy (inbounds : List (Policy F)) (m : Manager F) : ∃ caps, inbounds.foldl installPolicy m =
      { m with
        policies := (inbounds.map fun p => (p.inboundTag, p)).foldl assign m.policies
        users := (inbounds.flatMap fun p => p.users.map fun u => (key p.inboundTag u.email, u)).foldl assign m.users
        caps := caps } := by
  induction inbounds generalizing m with
  | nil => exact ⟨m.caps, rfl⟩
  | cons p rest ih =>
    obtain ⟨caps, users⟩ := foldl_installUser p.inboundTag p.users
      { m with policies := update m.policies p.inboundTag (some p) }
    obtain ⟨caps', done⟩ := ih (installPolicy m p)
    refine ⟨caps', ?_⟩
    rw [foldl_cons, done, installPolicy, users, flatMap_cons, foldl_append]
    rfl

/-- The manager once the maps are replaced, before its states and flows are visited. -/
def reset (m : Manager F) (document : Document F) (raw : Option Bytes) : Manager F :=
  document.inbounds.foldl installPolicy
    { m with
      document := document
      raw := raw
      policies := fun _ => none
      users := fun _ => none
      caps := fun _ => 0 }

theorem reset_frame (m : Manager F) (document : Document F) (raw : Option Bytes) :
    ∃ policies users caps, m.reset document raw =
      { m with document := document, raw := raw, policies := policies, users := users, caps := caps } := by
  obtain ⟨caps, done⟩ := foldl_installPolicy document.inbounds
    { m with
      document := document, raw := raw, policies := fun _ => none, users := fun _ => none, caps := fun _ => 0 }
  exact ⟨_, _, caps, done⟩

end Manager

variable [Float64 F]

variable {d : Document F}

theorem Document.Valid.policy?_eq_some (valid : d.Valid) {p : Policy F} :
    d.policy? tag = some p ↔ p ∈ d.inbounds ∧ p.inboundTag = tag := by
  constructor
  · intro found
    exact ⟨mem_of_find?_eq_some found, by simpa using List.find?_some found⟩
  · rintro ⟨member, rfl⟩
    cases found : d.policy? p.inboundTag with
    | none =>
      have := List.find?_eq_none.mp found p member
      simp at this
    | some q =>
      have same : q.inboundTag = p.inboundTag := by simpa using List.find?_some found
      exact congrArg some (inj_on_of_nodup_map valid.tags (mem_of_find?_eq_some found) member same)

theorem Document.Valid.user?_eq_some (valid : d.Valid) {email : String} {u : User F} :
    d.user? tag email = some u ↔ (key tag email, u) ∈ d.userEntries := by
  simp only [user?, Option.bind_eq_some_iff, userEntries, mem_flatMap, mem_map, Prod.mk.injEq]
  constructor
  · rintro ⟨p, found, chosen⟩
    obtain ⟨member, rfl⟩ := valid.policy?_eq_some.mp found
    have same : u.email = email := by simpa using List.find?_some chosen
    exact ⟨p, member, u, mem_of_find?_eq_some chosen, by rw [same], rfl⟩
  · rintro ⟨p, member, v, atUser, same, rfl⟩
    have sound := valid.inbounds p member
    obtain ⟨rfl, rfl⟩ := key_inj (textOK_clean sound.text) (textOK_clean (sound.users v atUser).text) same.symm
    refine ⟨p, valid.policy?_eq_some.mpr ⟨member, rfl⟩, ?_⟩
    cases found : p.users.find? fun w => w.email == v.email with
    | none =>
      have := List.find?_eq_none.mp found v atUser
      simp at this
    | some w =>
      have email : w.email = v.email := by simpa using List.find?_some found
      exact congrArg some (inj_on_of_nodup_map sound.emails (mem_of_find?_eq_some found) atUser email)

theorem Document.Valid.keys_nodup (valid : d.Valid) : (d.userEntries.map Prod.fst).Nodup := by
  have split : d.userEntries.map Prod.fst =
      d.inbounds.flatMap fun p => p.users.map fun u => key p.inboundTag u.email := by
    simp [userEntries, map_flatMap, Function.comp_def]
  rw [split, nodup_flatMap]
  constructor
  · intro p member
    have sound := valid.inbounds p member
    refine List.Nodup.map_on ?_ sound.emails.of_map
    intro u atU v atV same
    exact inj_on_of_nodup_map sound.emails atU atV
      (key_inj (textOK_clean sound.text) (textOK_clean (sound.users v atV).text) same).2
  · refine (List.pairwise_map.mp valid.tags).imp_of_mem ?_
    intro p q atP atQ differ k inP inQ
    obtain ⟨u, atU, rfl⟩ := List.mem_map.mp inP
    obtain ⟨v, atV, same⟩ := List.mem_map.mp inQ
    have sound := valid.inbounds p atP
    exact differ (key_inj (textOK_clean sound.text) (textOK_clean (sound.users u atU).text) same).1.symm

namespace Manager

/-- The maps of a manager are those of its document. -/
structure Installed (m : Manager F) : Prop where
  valid : m.document.Valid
  policies : m.policies = m.document.policy?
  users : ∀ tag email, m.users (key tag email) = m.document.user? tag email

theorem reset_installed (m : Manager F) {document : Document F} (valid : document.Valid) (raw : Option Bytes) :
    (m.reset document raw).Installed := by
  obtain ⟨caps, done⟩ := foldl_installPolicy document.inbounds
    { m with
      document := document, raw := raw, policies := fun _ => none, users := fun _ => none, caps := fun _ => 0 }
  rw [reset, done]
  refine ⟨valid, ?_, fun tag email => ?_⟩
  · funext tag
    apply Option.ext
    intro p
    have distinct : ((document.inbounds.map fun p => (p.inboundTag, p)).map Prod.fst).Nodup := by
      simpa [Function.comp_def] using valid.tags
    simp only [foldl_assign distinct, reduceCtorEq, and_false, or_false, mem_map, Prod.mk.injEq]
    rw [valid.policy?_eq_some]
    constructor
    · rintro ⟨q, member, tags, rfl⟩
      exact ⟨member, tags⟩
    · rintro ⟨member, tags⟩
      exact ⟨p, member, tags, rfl⟩
  · apply Option.ext
    intro u
    have assigned := foldl_assign valid.keys_nodup (f := fun _ => none) (k := key tag email) (a := u)
    simp only [reduceCtorEq, and_false, or_false] at assigned
    rw [valid.user?_eq_some]
    exact assigned

end Manager

end OpenNode.NodeLimits
