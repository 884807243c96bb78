import OpenNode.KeyOwnership

namespace OpenNode.SubscriptionKeys

open Edits List

section Resolution

variable (s : Store)

/-- `user_codes`, in the order in which the dictionary is filled. -/
def Store.userCodes : List (String × String) :=
  s.tokens.flatMap fun row => ((row.customShortCode.toList ++ [row.shortCode]).filter (· != "")).map (·,
    row.username)

def Store.profileCodes : List (String × Profile) :=
  s.profiles.flatMap fun profile => (profile.codes.filter (· != "")).map (·, profile)

/-- `plan_codes`. -/
def Store.planCodeTexts : List String :=
  s.planCodes.map (·.code)

/-- The profile whose own code is looked up first. -/
def Store.directProfile? (code : String) : Option Profile :=
  s.profiles.find? fun profile => decide (code ∈ profile.codes)

/-- The turn of `_resolve_code` for a position. -/
def Store.resolveAt (code : List Char) (position : Nat) : Option (String × Option Profile) :=
  (Claims.owner? s.userCodes (String.ofList (code.drop position))).bind fun username =>
    let left := String.ofList (code.take position)
    match Claims.owner? s.profileCodes left with
    | some profile => some (username, some profile)
    | none => if left ∈ s.planCodeTexts then some (username, none) else none

def Store.resolveCode (code : String) : Option (String × Option Profile) :=
  match s.directProfile? code with
  | some profile => some (profile.ownerUsername, some profile)
  | none => (List.range' 1 (code.length - 1)).reverse.findSome? (s.resolveAt code.toList)

/-- `provider`, up to the content; `expired` says whether a profile has expired. -/
def Store.provider (expired : Profile → Bool) (code : String) (identifier : Nat) :
    Option (String × ProxyProvider) :=
  let code := strip code
  if code = "" then none
  else
    match s.resolveCode code with
    | some (username, some profile) =>
      if profile.enabled && !expired profile && profile.proxyProvidersEnabled then
        ((s.providers.find? (·.id == identifier)).filter fun provider =>
          provider.enabled && provider.client && provider.ownerUsername == profile.ownerUsername &&
            (profile.selectedProxyProviderIds.isEmpty || profile.selectedProxyProviderIds.contains provider.id)).map
              (username, ·)
      else none
    | _ => none

/-- The links that are issued: a profile's own code, for its owner; its code
with one of an assigned user; and the code of a package with one of a user. -/
def Store.issuedLinks : List (String × String × Option Profile) :=
  (s.profileCodes.map fun (code, profile) => (code, profile.ownerUsername, some profile)) ++
    (s.profileCodes.flatMap fun (left, profile) =>
      (s.userCodes.filter fun (_, username) => profile.assignedUsernames.contains username).map fun (right,
        username) =>
        (left ++ right, username, some profile)) ++
    ((s.planCodeTexts.filter (· != "")).flatMap fun left =>
      s.userCodes.map fun (right, username) => (left ++ right, username, none))

/-- Every issued link resolves to what it was issued for, and every code that
resolves is an issued link. -/
structure Store.LinksHold : Prop where
  resolves : ∀ code username profile, (code, username, profile) ∈ s.issuedLinks →
    s.resolveCode code = some (username, profile)
  accepts : ∀ code username profile, code ≠ "" → s.resolveCode code = some (username, profile) →
    (code, username, profile) ∈ s.issuedLinks
  /-- So the content of a provider goes to who has a link to its profile. -/
  provides : ∀ expired code identifier username provider, s.provider expired code identifier =
    some (username, provider) →
    ∃ profile, (strip code, username, some profile) ∈ s.issuedLinks ∧ provider.ownerUsername = profile.ownerUsername

/-- A text read as the code of a profile or of a package and the code of a user. -/
def Store.Reads (left right username : String) (profile : Option Profile) : Prop :=
  left ≠ "" ∧ (right, username) ∈ s.userCodes ∧
    match profile with
    | some profile => (left, profile) ∈ s.profileCodes
    | none => left ∈ s.planCodeTexts ∧ ∀ profile, (left, profile) ∉ s.profileCodes

/-- The reading of a text with the shortest code of a user. -/
def Store.Preferred (code left right username : String) (profile : Option Profile) : Prop :=
  left ++ right = code ∧ s.Reads left right username profile ∧
    ∀ left' right' username' profile', left' ++ right' = code → s.Reads left' right' username' profile' →
      right.length ≤ right'.length

/-- No issued link is spelled like another profile's own code, and where a text
is no such code, its preferred reading is of an assigned user and every issued
link of that spelling is for the same. -/
def Store.Unambiguous : Prop :=
  (∀ code username profile, (code, username, profile) ∈ s.issuedLinks → ∀ own, (code, own) ∈ s.profileCodes →
    username = own.ownerUsername ∧ profile = some own) ∧
  ∀ code left right username profile, (∀ own, (code, own) ∉ s.profileCodes) →
    s.Preferred code left right username profile →
    (∀ assigned, profile = some assigned → username ∈ assigned.assignedUsernames) ∧
      ∀ username' profile', (code, username', profile') ∈ s.issuedLinks → username' = username ∧ profile' = profile

end Resolution

section Codes

variable {s : Store}

variable {code username : String}

theorem mem_userCodes : (code, username) ∈ s.userCodes ↔
    code ≠ "" ∧ ∃ row ∈ s.tokens, row.username = username ∧
      (row.customShortCode = some code ∨ row.shortCode = code) := by
  simp only [Store.userCodes, mem_flatMap, mem_map, mem_filter, mem_append, Option.mem_toList,
    mem_singleton, Prod.mk.injEq, bne_iff_ne]
  constructor
  · rintro ⟨row, here, key, ⟨mine, filled⟩, rfl, rfl⟩
    exact ⟨filled, row, here, rfl, mine.imp Option.mem_def.mp Eq.symm⟩
  · rintro ⟨filled, row, here, rfl, mine⟩
    exact ⟨row, here, code, ⟨mine.imp Option.mem_def.mpr Eq.symm, filled⟩, rfl, rfl⟩

variable {profile : Profile}

theorem mem_profileCodes : (code, profile) ∈ s.profileCodes ↔
    code ≠ "" ∧ profile ∈ s.profiles ∧ code ∈ profile.codes := by
  simp only [Store.profileCodes, mem_flatMap, mem_map, mem_filter, Prod.mk.injEq, bne_iff_ne]
  constructor
  · rintro ⟨other, here, key, ⟨mine, filled⟩, rfl, rfl⟩
    exact ⟨filled, here, mine⟩
  · rintro ⟨filled, here, mine⟩
    exact ⟨profile, here, code, ⟨mine, filled⟩, rfl, rfl⟩

theorem Store.Sound.userCode_unique (sound : s.Sound) {username' : String} (here : (code, username) ∈ s.userCodes)
    (there : (code, username') ∈ s.userCodes) : username = username' := by
  obtain ⟨_, row, listed, rfl, mine⟩ := mem_userCodes.mp here
  obtain ⟨_, other, listed', rfl, mine'⟩ := mem_userCodes.mp there
  by_contra different
  have key (row : Token) (mine : row.customShortCode = some code ∨ row.shortCode = code) : code ∈ row.keys := by
    rcases mine with custom | short
    · exact mem_cons_of_mem _ (mem_cons_of_mem _ (by simp [custom]))
    · exact mem_cons_of_mem _ (short ▸ mem_cons_self)
  exact sound.tokens.2 row listed other listed' different code (key row mine) code (key other mine') rfl

theorem Store.Sound.profileCode_unique (sound : s.Sound) {profile' : Profile}
    (here : (code, profile) ∈ s.profileCodes) (there : (code, profile') ∈ s.profileCodes) : profile = profile' := by
  obtain ⟨_, listed, mine⟩ := mem_profileCodes.mp here
  obtain ⟨_, listed', mine'⟩ := mem_profileCodes.mp there
  by_contra different
  refine sound.profiles.2 profile listed profile' listed' (fun same => different ?_) code mine code mine' rfl
  exact Rows.unique sound.profiles.1 listed listed' same

theorem Store.Sound.userCode? (sound : s.Sound) :
    Claims.owner? s.userCodes code = some username ↔ (code, username) ∈ s.userCodes := by
  refine ⟨Claims.owner?_some, fun here => ?_⟩
  obtain ⟨other, known⟩ := Claims.owner?_isSome here
  rw [known, sound.userCode_unique (Claims.owner?_some known) here]

theorem Store.Sound.profileCode? (sound : s.Sound) :
    Claims.owner? s.profileCodes code = some profile ↔ (code, profile) ∈ s.profileCodes := by
  refine ⟨Claims.owner?_some, fun here => ?_⟩
  obtain ⟨other, known⟩ := Claims.owner?_isSome here
  rw [known, sound.profileCode_unique (Claims.owner?_some known) here]

theorem Store.Sound.directProfile? (sound : s.Sound) (here : (code, profile) ∈ s.profileCodes) :
    s.directProfile? code = some profile := by
  obtain ⟨filled, listed, mine⟩ := mem_profileCodes.mp here
  have found : (s.directProfile? code).isSome := List.find?_isSome.mpr ⟨profile, listed, decide_eq_true mine⟩
  obtain ⟨other, known⟩ := Option.isSome_iff_exists.mp found
  have matched := List.find?_some known
  have there : (code, other) ∈ s.profileCodes :=
    mem_profileCodes.mpr ⟨filled, mem_of_find?_eq_some known, of_decide_eq_true matched⟩
  rw [known, sound.profileCode_unique there here]

theorem directProfile?_none (none : ∀ profile, (code, profile) ∉ s.profileCodes) (filled : code ≠ "") :
    s.directProfile? code = .none := by
  refine List.find?_eq_none.mpr fun profile here mine => ?_
  exact none profile (mem_profileCodes.mpr ⟨filled, here, of_decide_eq_true mine⟩)

end Codes

section Readings

variable {s : Store}

theorem Store.Sound.resolveAt_iff (sound : s.Sound) (code : List Char) (position : Nat) (username : String)
    (profile : Option Profile) (inside : position ≠ 0) (within : position ≤ code.length) :
    s.resolveAt code position = some (username, profile) ↔
      s.Reads (String.ofList (code.take position)) (String.ofList (code.drop position)) username profile := by
  have filled : String.ofList (code.take position) ≠ "" := by
    intro empty
    have length : (code.take position).length = 0 := by
      have same := congrArg String.toList empty
      rw [String.toList_ofList] at same
      rw [same]
      rfl
    rw [length_take] at length
    omega
  unfold Store.resolveAt Store.Reads
  generalize String.ofList (code.take position) = left at filled ⊢
  generalize String.ofList (code.drop position) = right
  rw [Option.bind_eq_some_iff]
  constructor
  · rintro ⟨user, known, read⟩
    have mine := sound.userCode?.mp known
    dsimp only at read
    split at read
    · rename_i own found
      cases read
      exact ⟨filled, mine, sound.profileCode?.mp found⟩
    · rename_i none
      split at read
      · rename_i plan
        cases read
        exact ⟨filled, mine, plan, fun own here => nomatch none.symm.trans (sound.profileCode?.mpr here)⟩
      · exact nomatch read
  · rintro ⟨_, mine, read⟩
    refine ⟨username, sound.userCode?.mpr mine, ?_⟩
    cases profile with
    | some own => simp only [sound.profileCode?.mpr read]
    | none =>
      obtain ⟨plan, unowned⟩ := read
      cases found : Claims.owner? s.profileCodes left with
      | some own => exact absurd (sound.profileCode?.mp found) (unowned own)
      | none => simp only [found, if_pos plan]

variable {username : String} {profile : Option Profile}

theorem Store.Reads.position {code left right : String} (reads : s.Reads left right username profile)
    (split : left ++ right = code) :
    left.length ∈ List.range' 1 (code.length - 1) ∧ String.ofList (code.toList.take left.length) = left ∧
      String.ofList (code.toList.drop left.length) = right := by
  have lists : code.toList = left.toList ++ right.toList := by rw [← split, String.toList_append]
  have lengths : code.length = left.length + right.length := by
    rw [← String.length_toList, lists, length_append, String.length_toList, String.length_toList]
  have pos {text : String} (filled : text ≠ "") : text.length ≠ 0 :=
    fun zero => filled (String.length_eq_zero_iff.mp zero)
  have first := pos reads.1
  have second := pos (mem_userCodes.mp reads.2.1).1
  refine ⟨?_, ?_, ?_⟩
  · rw [mem_range'_1]
    omega
  · rw [lists, ← String.length_toList, take_left, String.ofList_toList]
  · rw [lists, ← String.length_toList, drop_left, String.ofList_toList]

theorem Store.Sound.resolveCode_iff (sound : s.Sound) {code : String} (direct : s.directProfile? code = none) :
    s.resolveCode code = some (username, profile) ↔ ∃ left right, s.Preferred code left right username profile := by
  unfold Store.resolveCode
  rw [direct]
  rw [List.findSome?_eq_some_iff]
  constructor
  · rintro ⟨before, position, after, visits, read, missed⟩
    have sorted : (List.range' 1 (code.length - 1)).Pairwise (· < ·) := pairwise_lt_range'
    have reversed : before.Pairwise (· > ·) ∧ (position :: after).Pairwise (· > ·) ∧
        ∀ x ∈ before, ∀ y ∈ position :: after, x > y := by
      rw [← pairwise_append, ← visits, pairwise_reverse]
      exact sorted
    have inside : ∀ x, x ∈ before ++ position :: after ↔ x ∈ List.range' 1 (code.length - 1) := by
      intro x
      rw [← visits, mem_reverse]
    have here := mem_range'_1.mp ((inside position).mp (mem_append_right _ mem_cons_self))
    have reads := (sound.resolveAt_iff code.toList position username profile (by omega)
      (by rw [String.length_toList]; omega)).mp read
    refine ⟨_, _, ?_, reads, fun left' right' username' profile' split reads' => ?_⟩
    · rw [← String.ofList_append, take_append_drop, String.ofList_toList]
    · obtain ⟨visited, take, drop⟩ := reads'.position split
      by_contra longer
      rw [Nat.not_le] at longer
      have lengths : code.length = left'.length + right'.length := by
        rw [← split, ← String.length_toList, String.toList_append, length_append, String.length_toList,
          String.length_toList]
      have length : (String.ofList (code.toList.drop position)).length = code.length - position := by
        rw [← String.length_toList, String.toList_ofList, length_drop, String.length_toList]
      have later : position < left'.length := by omega
      rcases List.mem_append.mp ((inside left'.length).mpr visited) with early | late
      · have none := missed _ early
        have some := (sound.resolveAt_iff code.toList left'.length username' profile'
          (by have := mem_range'_1.mp visited; omega)
          (by rw [String.length_toList]; omega)).mpr (by rw [take, drop]; exact reads')
        exact nomatch none.symm.trans some
      · rcases List.mem_cons.mp late with same | after'
        · omega
        · have := rel_of_pairwise_cons reversed.2.1 after'
          omega
  · rintro ⟨left, right, split, reads, shortest⟩
    obtain ⟨visited, take, drop⟩ := reads.position split
    obtain ⟨before, after, visits⟩ := append_of_mem (List.mem_reverse.mpr visited)
    have bounds := mem_range'_1.mp visited
    refine ⟨before, left.length, after, visits, ?_, fun x early => ?_⟩
    · refine (sound.resolveAt_iff _ _ _ _ (by omega) (by rw [String.length_toList]; omega)).mpr ?_
      rw [take, drop]
      exact reads
    · cases read : s.resolveAt code.toList x with
      | none => rfl
      | some other =>
        exfalso
        have listed : x ∈ List.range' 1 (code.length - 1) := by
          rw [← mem_reverse, visits]
          exact mem_append_left _ early
        have inside := mem_range'_1.mp listed
        have reads' := (sound.resolveAt_iff code.toList x other.1 other.2 (by omega)
          (by rw [String.length_toList]; omega)).mp read
        have le := shortest _ _ _ _ (by rw [← String.ofList_append, take_append_drop, String.ofList_toList]) reads'
        have length : (String.ofList (code.toList.drop x)).length = code.length - x := by
          rw [← String.length_toList, String.toList_ofList, length_drop, String.length_toList]
        have lengths : code.length = left.length + right.length := by
          rw [← split, ← String.length_toList, String.toList_append, length_append, String.length_toList,
            String.length_toList]
        have order : x > left.length := by
          have sorted : (List.range' 1 (code.length - 1)).reverse.Pairwise (· > ·) :=
            List.pairwise_reverse.mpr pairwise_lt_range'
          rw [visits, pairwise_append] at sorted
          exact sorted.2.2 x early _ mem_cons_self
        omega

theorem Store.Reads.preferred {code left right : String} (reads : s.Reads left right username profile)
    (split : left ++ right = code) :
    ∃ left right username profile, s.Preferred code left right username profile := by
  induction length : right.length using Nat.strongRecOn generalizing left right username profile with
  | ind n ih =>
    by_cases shorter : ∃ left' right' username' profile', left' ++ right' = code ∧
      s.Reads left' right' username' profile' ∧
        right'.length < right.length
    · obtain ⟨left', right', username', profile', split', reads', less⟩ := shorter
      exact ih right'.length (length ▸ less) reads' split' rfl
    · refine ⟨left, right, username, profile, split, reads, fun left' right' username' profile' split' reads' => ?_⟩
      by_contra longer
      exact shorter ⟨left', right', username', profile', split', reads', Nat.not_le.mp longer⟩

end Readings

section Links

variable {s : Store} {code username : String} {profile : Option Profile}

theorem mem_issuedLinks : (code, username, profile) ∈ s.issuedLinks ↔
    (∃ own, (code, own) ∈ s.profileCodes ∧ username = own.ownerUsername ∧ profile = some own) ∨
    (∃ left right own, left ++ right = code ∧ (left, own) ∈ s.profileCodes ∧ (right, username) ∈ s.userCodes ∧
      username ∈ own.assignedUsernames ∧ profile = some own) ∨
    ∃ left right, left ++ right = code ∧ left ≠ "" ∧ left ∈ s.planCodeTexts ∧ (right, username) ∈ s.userCodes ∧
      profile = none := by
  simp only [Store.issuedLinks, mem_append, mem_map, mem_flatMap, mem_filter, Prod.mk.injEq,
    contains_iff_mem, bne_iff_ne]
  constructor
  · rintro ((⟨⟨own, owner⟩, here, rfl, rfl, rfl⟩ | ⟨⟨left, own⟩, here, ⟨right, user⟩, ⟨mine, assigned⟩, rfl,
      rfl, rfl⟩) |
      ⟨left, ⟨plan, filled⟩, ⟨right, user⟩, mine, rfl, rfl, rfl⟩)
    · exact .inl ⟨_, here, rfl, rfl⟩
    · exact .inr (.inl ⟨left, right, own, rfl, here, mine, assigned, rfl⟩)
    · exact .inr (.inr ⟨left, right, rfl, filled, plan, mine, rfl⟩)
  · rintro (⟨own, here, rfl, rfl⟩ | ⟨left, right, own, rfl, here, mine, assigned, rfl⟩ | ⟨left, right, rfl, filled,
      plan, mine, rfl⟩)
    · exact .inl (.inl ⟨_, here, rfl, rfl, rfl⟩)
    · exact .inl (.inr ⟨_, here, _, ⟨mine, assigned⟩, rfl, rfl, rfl⟩)
    · exact .inr ⟨left, ⟨plan, filled⟩, _, mine, rfl, rfl, rfl⟩

theorem Store.Sound.resolveCode_own (sound : s.Sound) {own : Profile} (here : (code, own) ∈ s.profileCodes) :
    s.resolveCode code = some (own.ownerUsername, some own) := by
  unfold Store.resolveCode
  rw [sound.directProfile? here]

theorem Store.Sound.resolveCode_reading (sound : s.Sound) (unowned : ∀ own, (code, own) ∉ s.profileCodes)
    (filled : code ≠ "") :
    s.resolveCode code = some (username, profile) ↔ ∃ left right, s.Preferred code left right username profile :=
  sound.resolveCode_iff (directProfile?_none unowned filled)

theorem issuedLinks_reads (issued : (code, username, profile) ∈ s.issuedLinks)
    (unowned : ∀ own, (code, own) ∉ s.profileCodes) :
    ∃ left right read, left ++ right = code ∧ s.Reads left right username read := by
  rcases mem_issuedLinks.mp issued with ⟨own, here, _⟩ | ⟨left, right, own, split, here, mine, _⟩ | ⟨left, right,
    split, filled, plan, mine, _⟩
  · exact absurd here (unowned own)
  · exact ⟨left, right, some own, split, (mem_profileCodes.mp here).1, mine, here⟩
  · by_cases owned : ∃ own, (left, own) ∈ s.profileCodes
    · obtain ⟨own, here⟩ := owned
      exact ⟨left, right, some own, split, filled, mine, here⟩
    · exact ⟨left, right, none, split, filled, mine, plan, fun own here => owned ⟨own, here⟩⟩

theorem Store.Preferred.filled {left right : String} (preferred : s.Preferred code left right username profile) :
    code ≠ "" := by
  intro empty
  have parts : (left ++ right).length = 0 := by rw [preferred.1, empty]; rfl
  rw [String.length_append] at parts
  exact preferred.2.1.1 (String.length_eq_zero_iff.mp (by omega))

theorem Store.LinksHold.unambiguous (sound : s.Sound) (holds : s.LinksHold) : s.Unambiguous := by
  refine ⟨fun code username profile issued own here => ?_,
    fun code left right username profile unowned preferred => ?_⟩
  · have resolved := holds.resolves code username profile issued
    rw [sound.resolveCode_own here] at resolved
    cases resolved
    exact ⟨rfl, rfl⟩
  · have resolved : s.resolveCode code = some (username, profile) :=
      (sound.resolveCode_reading unowned preferred.filled).mpr ⟨left, right, preferred⟩
    constructor
    · rintro assigned rfl
      rcases mem_issuedLinks.mp (holds.accepts code username _ preferred.filled resolved) with
        ⟨own, here, _⟩ | ⟨_, _, own, _, _, _, member, same⟩ | ⟨_, _, _, _, _, _, impossible⟩
      · exact absurd here (unowned own)
      · exact Option.some.inj same ▸ member
      · exact nomatch impossible
    · intro username' profile' issued
      rw [holds.resolves code username' profile' issued] at resolved
      exact Prod.mk.inj (Option.some.inj resolved)

theorem Store.Unambiguous.resolves (sound : s.Sound) (clear : s.Unambiguous)
    (issued : (code, username, profile) ∈ s.issuedLinks) :
    s.resolveCode code = some (username, profile) := by
  by_cases owned : ∃ own, (code, own) ∈ s.profileCodes
  · obtain ⟨own, here⟩ := owned
    obtain ⟨rfl, rfl⟩ := clear.1 code username profile issued own here
    exact sound.resolveCode_own here
  · have unowned : ∀ own, (code, own) ∉ s.profileCodes := fun own here => owned ⟨own, here⟩
    obtain ⟨_, _, _, split, reads⟩ := issuedLinks_reads issued unowned
    obtain ⟨left, right, user, read, preferred⟩ := reads.preferred split
    obtain ⟨rfl, rfl⟩ := (clear.2 code left right user read unowned preferred).2 username profile issued
    exact (sound.resolveCode_reading unowned preferred.filled).mpr ⟨left, right, preferred⟩

theorem Store.Unambiguous.accepts (sound : s.Sound) (clear : s.Unambiguous) (filled : code ≠ "")
    (resolved : s.resolveCode code = some (username, profile)) : (code, username, profile) ∈ s.issuedLinks := by
  by_cases owned : ∃ own, (code, own) ∈ s.profileCodes
  · obtain ⟨own, here⟩ := owned
    rw [sound.resolveCode_own here] at resolved
    cases resolved
    exact mem_issuedLinks.mpr (.inl ⟨own, here, rfl, rfl⟩)
  · have unowned : ∀ own, (code, own) ∉ s.profileCodes := fun own here => owned ⟨own, here⟩
    obtain ⟨left, right, preferred⟩ := (sound.resolveCode_reading unowned filled).mp resolved
    obtain ⟨split, ⟨nonempty, mine, read⟩, _⟩ := id preferred
    cases profile with
    | some own =>
      have assigned := (clear.2 code left right username _ unowned preferred).1 own rfl
      exact mem_issuedLinks.mpr (.inr (.inl ⟨left, right, own, split, read, mine, assigned, rfl⟩))
    | none => exact mem_issuedLinks.mpr (.inr (.inr ⟨left, right, split, nonempty, read.1, mine, rfl⟩))

theorem provider_some {expired : Profile → Bool} {identifier : Nat} {provider : ProxyProvider}
    (found : s.provider expired code identifier = some (username, provider)) :
    ∃ profile, strip code ≠ "" ∧ s.resolveCode (strip code) = some (username, some profile) ∧
      provider.ownerUsername = profile.ownerUsername := by
  unfold Store.provider at found
  dsimp only at found
  split at found
  · exact nomatch found
  · rename_i filled
    split at found
    · rename_i user profile resolved
      split at found
      · obtain ⟨served, accepted, same⟩ := Option.map_eq_some_iff.mp found
        obtain ⟨rfl, rfl⟩ := Prod.mk.inj same
        obtain ⟨_, checks⟩ := Option.filter_eq_some_iff.mp accepted
        simp only [Bool.and_eq_true, beq_iff_eq] at checks
        exact ⟨profile, filled, resolved, checks.1.2⟩
      · exact nomatch found
    · exact nomatch found

theorem Store.Sound.linksHold_iff (sound : s.Sound) : s.LinksHold ↔ s.Unambiguous := by
  refine ⟨fun holds => holds.unambiguous sound, fun clear =>
    ⟨fun _ _ _ => clear.resolves sound, fun _ _ _ => clear.accepts sound, ?_⟩⟩
  intro expired code identifier username provider found
  obtain ⟨profile, filled, resolved, owner⟩ := provider_some found
  exact ⟨profile, clear.accepts sound filled resolved, owner⟩

/-- After any requests, combined links resolve to what they were issued for if
and only if the codes are unambiguous and read for assigned users only. -/
theorem combined_links (events : List Event) : (Store.run {} events).LinksHold ↔
    (Store.run {} events).Unambiguous :=
  (run_sound empty_sound events).1.linksHold_iff

theorem not_linksHold (filled : code ≠ "") (resolved : (s.resolveCode code).isSome = true)
    (unissued : s.issuedLinks.all (·.1 != code) = true) : ¬ s.LinksHold := by
  intro holds
  obtain ⟨⟨user, read⟩, known⟩ := Option.isSome_iff_exists.mp resolved
  have here := List.all_eq_true.mp unissued _ (holds.accepts code user read filled known)
  exact absurd rfl (bne_iff_ne.mp here)

/-- A subscriber without the assignment gets a profile with its code and his own,
although no such link was issued. -/
theorem unassigned_profile :
    let links (token code : String) : Option LegacyLinks :=
      some { token := token, generatedShortCode := code, customShortCode := none }
    let entry : LegacyProfile :=
      { sourceId := 1, ownerUsername := "ann", fileShortCode := "f1", customShortCode := none, rawOutput := false,
        assignedUsernames := ["ann"] }
    let bundle : Bundle :=
      { users := [⟨"ann", links "token-of-ann" "a1"⟩, ⟨"bob", links "token-of-bob" "b1"⟩], packages := [],
        profiles := [entry] }
    let s := Store.run {} [.restart true true {} 0, .importIdentities bundle false false {} 1]
    ¬ s.LinksHold ∧ (s.resolveCode "f1b1").map (·.1) = some "bob" ∧ s.issuedLinks.all (·.1 != "f1b1") = true := by
  intro links entry bundle s
  have unissued : s.issuedLinks.all (·.1 != "f1b1") = true := by decide +kernel
  have resolved : (s.resolveCode "f1b1").map (·.1) = some "bob" := by decide +kernel
  exact ⟨not_linksHold (by decide) (by rw [← Option.isSome_map, resolved, Option.isSome_some]) unissued,
    resolved, unissued⟩

end Links

end OpenNode.SubscriptionKeys
