import OpenNode.SubscriptionKeys

namespace OpenNode.SubscriptionKeys

open Edits List Rows

/-- The keys of one subscriber are not those of another. -/
def TokensApart (tokens : List Token) : Prop :=
  (tokens.map (·.username)).Nodup ∧ Claims.Apart Token.username Token.keys fold tokens

/-- Every key of the rows was their subscriber's before or is supplied. -/
def KeysFrom (tokens tokens' : List Token) (supplied : List String) : Prop :=
  ∀ row ∈ tokens', ∀ key ∈ row.keys, key ∈ supplied ∨ ∃ old ∈ tokens, old.username = row.username ∧ key ∈ old.keys

/-- What a request leaves of the tokens. -/
structure Writes (s t : Store) (supplied : List String) : Prop where
  apart : TokensApart t.tokens
  keys : KeysFrom s.tokens t.tokens supplied
  shortLinks : t.shortLinksEnabled = s.shortLinksEnabled
  profiles : t.profiles = s.profiles
  planCodes : t.planCodes = s.planCodes
  nextProfile : t.nextProfile = s.nextProfile

def Draws.keys (draws : Draws) : List String :=
  draws.tokens ++ draws.codes

section Lookups

variable {s t : Store} {username : String}

theorem found_ok {α : Type} {error : String} {row? : Option α} {row : α} (done : found error row? = .ok row) :
    row? = some row := by
  cases row? with
  | none => exact nomatch done
  | some other => exact congrArg some (Except.ok.inj done)

theorem user?_some {user : User} (known : s.user? username = some user) : user ∈ s.users ∧
    user.username = username :=
  ⟨mem_of_find?_eq_some known, by simpa using List.find?_some known⟩

theorem token?_some {row : Token} (known : s.token? username = some row) : row ∈ s.tokens ∧
    row.username = username :=
  ⟨mem_of_find?_eq_some known, by simpa using List.find?_some known⟩

theorem token?_none (unknown : s.token? username = none) (row : Token) (here : row ∈ s.tokens) :
    row.username ≠ username := by
  simpa using List.find?_eq_none.mp unknown row here

variable {key : String}

theorem keyInUse_false {exceptUser : Option String} (free : s.keyInUse key exceptUser = false) (row : Token)
    (here : row ∈ s.tokens) (other : exceptUser ≠ some row.username) : ∀ k ∈ row.keys, fold k ≠ fold key := by
  intro k mine
  have quiet := List.any_eq_false.mp free row here
  simp only [bne_iff_ne, ne_eq, Bool.and_eq_true, any_eq_true, beq_iff_eq, not_and, not_exists] at quiet
  exact fun same => quiet other k mine same

theorem unique_ok {drawn : List String} (done : s.unique drawn = .ok key) :
    key ∈ drawn ∧ s.keyInUse key none = false := by
  have first := found_ok done
  exact ⟨mem_of_find?_eq_some first, by simpa using List.find?_some first⟩

end Lookups

section Tokens

variable {tokens tokens' : List Token} {supplied : List String} {username : String} {set : Token → Token}

theorem KeysFrom.refl (tokens : List Token) (supplied : List String) : KeysFrom tokens tokens supplied :=
  fun row here _ mine => .inr ⟨row, here, rfl, mine⟩

theorem KeysFrom.trans {middle : List Token} (first : KeysFrom tokens middle supplied)
    (second : KeysFrom middle tokens' supplied) :
    KeysFrom tokens tokens' supplied := by
  intro row here key mine
  rcases second row here key mine with drawn | ⟨between, there, same, held⟩
  · exact .inl drawn
  · rcases first between there key held with drawn | ⟨old, before, same', held'⟩
    · exact .inl drawn
    · exact .inr ⟨old, before, same'.trans same, held'⟩

theorem KeysFrom.subset (subset : ∀ row ∈ tokens', row ∈ tokens) : KeysFrom tokens tokens' supplied :=
  fun row here _ mine => .inr ⟨row, subset row here, rfl, mine⟩

theorem TokensApart.update (users : (tokens.map (·.username)).Nodup)
    (keeps : ∀ row, (set row).username = row.username)
    (others : ∀ row ∈ tokens, ∀ other ∈ tokens, row.username ≠ username → other.username ≠ username →
      row.username ≠ other.username → ∀ key ∈ row.keys, ∀ key' ∈ other.keys, fold key ≠ fold key')
    (free : ∀ row ∈ tokens, row.username = username → ∀ key ∈ (set row).keys, ∀ other ∈ tokens,
      other.username ≠ username →
      ∀ key' ∈ other.keys, fold key' ≠ fold key) :
    TokensApart (Rows.update (·.username == username) set tokens) := by
  refine ⟨nodup_update keeps users, ?_⟩
  intro row here other there different key mine key' its
  obtain ⟨old, before, ⟨target, rfl⟩ | ⟨target, rfl⟩⟩ := mem_update here
  · have owns : old.username = username := by simpa using target
    obtain ⟨old', before', ⟨target', rfl⟩ | ⟨target', rfl⟩⟩ := mem_update there
    · have owns' : old'.username = username := by simpa using target'
      rw [keeps, keeps, owns, owns'] at different
      exact absurd rfl different
    · exact (free old before owns key mine other before' (by simpa using target') key' its).symm
  · have apart : row.username ≠ username := by simpa using target
    obtain ⟨old', before', ⟨target', rfl⟩ | ⟨target', rfl⟩⟩ := mem_update there
    · exact free old' before' (by simpa using target') key' its row before apart key mine
    · exact others row before other before' apart (by simpa using target') different key mine key' its

theorem TokensApart.add (apart : TokensApart tokens) {row : Token}
    (new : ∀ other ∈ tokens, other.username ≠ row.username)
    (free : ∀ key ∈ row.keys, ∀ other ∈ tokens, ∀ key' ∈ other.keys, fold key' ≠ fold key) :
    TokensApart (tokens ++ [row]) := by
  refine ⟨nodup_append apart.1 new, ?_⟩
  intro one here other there different key mine key' its
  rcases List.mem_append.mp here with old | new'
  · rcases List.mem_append.mp there with old' | new''
    · exact apart.2 one old other old' different key mine key' its
    · obtain rfl := List.mem_singleton.mp new''
      exact free key' its one old key mine
  · obtain rfl := List.mem_singleton.mp new'
    rcases List.mem_append.mp there with old' | new''
    · exact (free key mine other old' key' its).symm
    · obtain rfl := List.mem_singleton.mp new''
      exact absurd rfl different

theorem TokensApart.filter (apart : TokensApart tokens) (p : Token → Bool) : TokensApart (tokens.filter p) :=
  ⟨apart.1.sublist (List.filter_sublist.map _), apart.2.mono fun row here =>
    ⟨row, mem_of_mem_filter here, rfl, fun _ mine => mine⟩⟩

end Tokens

section Links

variable {s t : Store} {draws : Draws} {now : Nat} {username : String}

theorem rotate_writes (users : (s.tokens.map (·.username)).Nodup)
    (others : ∀ row ∈ s.tokens, ∀ other ∈ s.tokens, row.username ≠ username → other.username ≠ username →
      row.username ≠ other.username → ∀ key ∈ row.keys, ∀ key' ∈ other.keys, fold key ≠ fold key')
    (done : s.rotate draws now username = .ok t) :
    Writes s t draws.keys ∧ (∀ row ∈ t.tokens, row.username = username → ∀ key ∈ row.keys, key ∈ draws.keys) ∧
      t.tokens.map (·.username) = s.tokens.map (·.username) := by
  obtain ⟨token, drawn, done⟩ := bind_eq_ok done
  obtain ⟨shortCode, drawn', done⟩ := bind_eq_ok done
  cases done
  obtain ⟨tokenDrawn, tokenFree⟩ := unique_ok drawn
  obtain ⟨codeDrawn, codeFree⟩ := unique_ok drawn'
  have made : ((s.setToken username fun row => { row with token := token }).setToken username fun row =>
      { row with
        shortCode := shortCode, customShortCode := none, bearerGeneration := .secure, updatedAt := now }).tokens =
      Rows.update (·.username == username) (fun row => { row with
        token := token, shortCode := shortCode, customShortCode := none, bearerGeneration := .secure,
        updatedAt := now })
        s.tokens := update_update fun _ => rfl
  have drawnOnly (row : Token) (here : row ∈ Rows.update (·.username == username) (fun row => { row with
      token := token, shortCode := shortCode, customShortCode := none, bearerGeneration :=
        .secure, updatedAt := now })
      s.tokens) : (row.username = username ∧ ∀ key ∈ row.keys, key ∈ draws.keys) ∨ row.username ≠ username ∧
        row ∈ s.tokens := by
    obtain ⟨old, before, ⟨target, rfl⟩ | ⟨target, rfl⟩⟩ := mem_update here
    · refine .inl ⟨by simpa using target, fun key mine => ?_⟩
      rcases List.mem_cons.mp mine with rfl | later
      · exact mem_append_left _ tokenDrawn
      · obtain rfl : key = shortCode := by simpa using later
        exact mem_append_right _ codeDrawn
    · exact .inr ⟨by simpa using target, before⟩
  refine ⟨⟨?_, ?_, rfl, rfl, rfl, rfl⟩, ?_, ?_⟩
  · rw [made]
    refine TokensApart.update users (fun _ => rfl) others fun row _ _ key mine other there different key' its => ?_
    rcases List.mem_cons.mp mine with rfl | later
    · exact keyInUse_false tokenFree other there nofun key' its
    · obtain rfl : key = shortCode := by simpa using later
      have still : other ∈ (s.setToken username fun row => { row with token := token }).tokens :=
        update_other there (by simpa using different)
      exact keyInUse_false codeFree other still nofun key' its
  · rw [made]
    intro row here key mine
    rcases drawnOnly row here with ⟨_, drawn⟩ | ⟨_, old⟩
    · exact .inl (drawn key mine)
    · exact .inr ⟨row, old, rfl, mine⟩
  · rw [made]
    intro row here owns key mine
    rcases drawnOnly row here with ⟨_, drawn⟩ | ⟨other, _⟩
    · exact drawn key mine
    · exact absurd owns other
  · rw [made]
    exact keys_update fun _ => rfl

theorem rotate_apart (apart : TokensApart s.tokens) (done : s.rotate draws now username = .ok t) :
    Writes s t draws.keys :=
  (rotate_writes apart.1 (fun row here other there _ _ => apart.2 row here other there) done).1

theorem Writes.refl (apart : TokensApart s.tokens) (supplied : List String) : Writes s s supplied :=
  ⟨apart, .refl s.tokens supplied, rfl, rfl, rfl, rfl⟩

theorem issue_writes (apart : TokensApart s.tokens) {reset : Bool}
    (done : s.issue draws now username reset = .ok t) :
    Writes s t draws.keys ∧
      (reset = true → ∀ row ∈ t.tokens, row.username = strip username → ∀ key ∈ row.keys, key ∈ draws.keys) ∧
      t.users = s.users := by
  obtain ⟨_, _, done⟩ := bind_eq_ok done
  obtain ⟨user, known, done⟩ := bind_eq_ok done
  obtain ⟨_, _, done⟩ := bind_eq_ok done
  obtain ⟨_, named⟩ := user?_some (found_ok known)
  split at done
  · rename_i unknown
    obtain ⟨token, drawn, done⟩ := bind_eq_ok done
    obtain ⟨shortCode, drawn', done⟩ := bind_eq_ok done
    cases done
    obtain ⟨tokenDrawn, tokenFree⟩ := unique_ok drawn
    obtain ⟨codeDrawn, codeFree⟩ := unique_ok drawn'
    let row : Token := { username := user.username, token := token, shortCode := shortCode, updatedAt := now }
    have keys (key : String) (mine : key ∈ row.keys) : key ∈ draws.keys ∧ s.keyInUse key none = false := by
      rcases List.mem_cons.mp mine with rfl | later
      · exact ⟨mem_append_left _ tokenDrawn, tokenFree⟩
      · obtain rfl : key = shortCode := by simpa [row] using later
        exact ⟨mem_append_right _ codeDrawn, codeFree⟩
    refine ⟨⟨?_, ?_, rfl, rfl, rfl, rfl⟩, ?_, rfl⟩
    · exact apart.add (token?_none unknown) fun key mine other there =>
        keyInUse_false (keys key mine).2 other there nofun
    · intro one here key mine
      rcases List.mem_append.mp here with old | new
      · exact .inr ⟨one, old, rfl, mine⟩
      · obtain rfl := List.mem_singleton.mp new
        exact .inl (keys key mine).1
    · intro _ one here owns key mine
      rcases List.mem_append.mp here with old | new
      · exact absurd (owns.trans named.symm) (token?_none unknown one old)
      · obtain rfl := List.mem_singleton.mp new
        exact (keys key mine).1
  · rename_i row present
    obtain ⟨_, rowNamed⟩ := token?_some present
    split at done
    · have rotated := rotate_writes apart.1 (fun row here other there _ _ => apart.2 row here other there) done
      refine ⟨rotated.1, fun _ one here owns => rotated.2.1 one here (owns.trans (named.symm.trans rowNamed.symm)),
        ?_⟩
      obtain ⟨_, _, done⟩ := bind_eq_ok done
      obtain ⟨_, _, done⟩ := bind_eq_ok done
      cases done
      rfl
    · rename_i kept
      cases done
      refine ⟨.refl apart _, fun set => ?_, rfl⟩
      rw [set] at kept
      exact absurd rfl kept

theorem saveCode_writes (apart : TokensApart s.tokens) {row : Token} (here : row ∈ s.tokens) {code : Option String}
    (free : ∀ key ∈ code, s.keyInUse key (some row.username) = false) (done : s.saveCode now row code = .ok t) :
    Writes s t code.toList ∧ t.users = s.users ∧ ∀ row' ∈ t.tokens, row'.username = row.username →
      row'.customShortCode = code := by
  unfold Store.saveCode at done
  split at done
  · rename_i same
    cases done
    refine ⟨.refl apart _, rfl, fun row' there owns => ?_⟩
    rw [unique apart.1 there here owns]
    exact same
  · obtain ⟨_, _, done⟩ := bind_eq_ok done
    cases done
    refine ⟨⟨?_, ?_, rfl, rfl, rfl, rfl⟩, rfl, ?_⟩
    · refine TokensApart.update apart.1 (fun _ => rfl) (fun one there other there' _ _ =>
        apart.2 one there other there')
        fun one there owns key mine other there' different key' its => ?_
      rcases List.mem_cons.mp mine with rfl | later
      · exact apart.2 other there' one there (owns ▸ different) key' its _ mem_cons_self
      · rcases List.mem_cons.mp later with rfl | custom
        · exact apart.2 other there' one there (owns ▸ different) key' its _ (mem_cons_of_mem _ mem_cons_self)
        · have claimed : key ∈ code := by simpa using custom
          exact keyInUse_false (free key claimed) other there' (fun same =>
            different (Option.some.inj same).symm) key' its
    · intro one there key mine
      obtain ⟨old, before, ⟨_, rfl⟩ | ⟨_, rfl⟩⟩ := mem_update there
      · rcases List.mem_cons.mp mine with rfl | later
        · exact .inr ⟨old, before, rfl, mem_cons_self⟩
        · rcases List.mem_cons.mp later with rfl | custom
          · exact .inr ⟨old, before, rfl, mem_cons_of_mem _ mem_cons_self⟩
          · exact .inl custom
      · exact .inr ⟨one, before, rfl, mine⟩
    · intro row' there owns
      obtain ⟨old, before, ⟨_, rfl⟩ | ⟨other, rfl⟩⟩ := mem_update there
      · rfl
      · exact absurd owns (by simpa using other)

theorem validateCode_ok {value code : String} (done : validateCode value = .ok code) : code = strip value := by
  obtain ⟨_, _, done⟩ := bind_eq_ok done
  obtain ⟨_, _, done⟩ := bind_eq_ok done
  exact (Except.ok.inj done).symm

variable {supplied : List String}

theorem Writes.widen {wider : List String} (writes : Writes s t supplied) (subset : ∀ key ∈ supplied, key ∈ wider) :
    Writes s t wider :=
  { writes with keys := fun row here key mine => (writes.keys row here key mine).imp_left (subset key) }

theorem Writes.trans {r : Store} (first : Writes s t supplied) (second : Writes t r supplied) :
    Writes s r supplied :=
  ⟨second.apart, first.keys.trans second.keys, second.shortLinks.trans first.shortLinks,
    second.profiles.trans first.profiles,
    second.planCodes.trans first.planCodes, second.nextProfile.trans first.nextProfile⟩

theorem setShortCode_writes (apart : TokensApart s.tokens) {code : String} {expected : Token}
    (done : s.setShortCode draws now username code expected = .ok t) :
    Writes s t (strip code :: draws.keys) ∧
      (strip code ≠ "" → (∀ row ∈ t.tokens, row.username = strip username →
        row.customShortCode = some (strip code)) ∧
        ∀ user ∈ t.users, user.username ≠ strip username → fold user.username ≠ fold (strip code)) := by
  obtain ⟨code', validated, done⟩ := bind_eq_ok done
  obtain rfl := validateCode_ok validated
  obtain ⟨issued, issue, done⟩ := bind_eq_ok done
  obtain ⟨row, known, done⟩ := bind_eq_ok done
  obtain ⟨_, _, done⟩ := bind_eq_ok done
  obtain ⟨first, _, users⟩ := issue_writes apart issue
  obtain ⟨here, named⟩ := token?_some (found_ok known)
  have wider : Writes s issued (strip code :: draws.keys) := first.widen fun _ => mem_cons_of_mem _
  split at done
  · rename_i cleared
    obtain ⟨second, _, _⟩ :=
      saveCode_writes first.apart here (fun _ claimed => absurd claimed (Option.not_mem_none _)) done
    exact ⟨wider.trans (second.widen fun _ none => absurd none not_mem_nil), fun set => absurd cleared set⟩
  · obtain ⟨_, checked, done⟩ := bind_eq_ok done
    obtain ⟨unnamed, free⟩ := require_ok checked
    obtain ⟨second, users', saved⟩ := saveCode_writes first.apart here (fun key mine => by
      obtain rfl : strip code = key := Option.some.inj mine
      exact free) done
    refine ⟨wider.trans (second.widen fun key mine => ?_), fun _ =>
      ⟨fun one there owns => ?_, fun user there other => ?_⟩⟩
    · obtain rfl : key = strip code := by simpa using mine
      exact mem_cons_self
    · exact saved one there (owns.trans named.symm)
    · exact unnamed user (users' ▸ there) (named ▸ other)

theorem rotateLegacy_writes (apart : TokensApart s.tokens) (done : s.rotateLegacy draws now = .ok t) :
    Writes s t draws.keys := by
  exact foldlM_keeps (P := fun t => Writes s t draws.keys) (fun _ _ middle next writes rotated =>
    writes.trans (rotate_apart writes.apart rotated)) (.refl apart _) done

end Links

section Import

variable {s t t' : Store} {bundle : Bundle} {replaceExisting : Bool} {draws : Draws} {now : Nat}

/-- What holds between the turns of `apply`: nobody has a key that another
subscriber is still to get. -/
structure Importing (s t : Store) (claims : List (String × String)) (supplied : List String) : Prop where
  apart : TokensApart t.tokens
  keys : KeysFrom s.tokens t.tokens supplied
  clear : t.shortLinksEnabled = true → Claims.Clear Token.username Token.keys fold t.tokens claims
  grown : ∀ row ∈ s.tokens, ∃ row' ∈ t.tokens, row'.username = row.username
  shortLinks : t.shortLinksEnabled = s.shortLinksEnabled
  profiles : t.profiles = s.profiles
  planCodes : t.planCodes = s.planCodes
  nextProfile : t.nextProfile = s.nextProfile

variable {entry : LegacyIdentity}

theorem mem_importRow {links : LegacyLinks} {row : Token} (here : row ∈ (s.importRow now entry links).tokens) :
    (row ∈ s.tokens ∧ row.username ≠ entry.username) ∨ (row.username = entry.username ∧ row.keys = links.keys) := by
  unfold Store.importRow at here
  split at here
  · rename_i unknown
    rcases List.mem_append.mp here with old | new
    · exact .inl ⟨old, token?_none unknown row old⟩
    · obtain rfl := List.mem_singleton.mp new
      exact .inr ⟨rfl, rfl⟩
  · obtain ⟨old, before, ⟨_, rfl⟩ | ⟨other, rfl⟩⟩ := mem_update here
    · exact .inr ⟨rfl, rfl⟩
    · exact .inl ⟨before, by simpa using other⟩

theorem importRow_users (now : Nat) (users : (s.tokens.map (·.username)).Nodup) (entry : LegacyIdentity)
    (links : LegacyLinks) :
    ((s.importRow now entry links).tokens.map (·.username)).Nodup ∧
      ∀ row ∈ s.tokens, ∃ row' ∈ (s.importRow now entry links).tokens, row'.username = row.username := by
  unfold Store.importRow
  split
  · rename_i unknown
    exact ⟨nodup_append users fun other here => token?_none unknown other here,
      fun row here => ⟨row, mem_append_left _ here, rfl⟩⟩
  · let row : Token :=
      { username := entry.username
        token := links.token
        shortCode := links.generatedShortCode
        customShortCode := links.customShortCode
        bearerGeneration := .legacy
        updatedAt := now }
    have same : (Rows.update (·.username == entry.username) (fun _ => row) s.tokens).map (·.username) =
        s.tokens.map (·.username) := by
      rw [Rows.update, map_map]
      refine map_congr_left fun old _ => ?_
      simp only [Function.comp_apply]
      split
      · rename_i mine
        exact (eq_of_beq mine).symm
      · rfl
    refine ⟨?_, fun old here => ?_⟩
    · change ((Rows.update (·.username == entry.username) (fun _ => row) s.tokens).map (·.username)).Nodup
      rw [same]
      exact users
    · have listed : old.username ∈ (Rows.update (·.username == entry.username) (fun _ => row) s.tokens).map
          (·.username) := by
        rw [same]
        exact mem_map_of_mem here
      obtain ⟨new, there, named⟩ := List.mem_map.mp listed
      exact ⟨new, there, named⟩

theorem importUser_importing {claims : List (String × String)} {supplied : List String}
    (compatible : Claims.Compatible fold claims) (drawn : ∀ key ∈ draws.keys, key ∈ supplied)
    (claimed : ∀ links ∈ entry.links, ((s.token? entry.username).isNone || replaceExisting) = true →
      ∀ key ∈ links.keys, (entry.username, key) ∈ claims ∧ key ∈ supplied)
    (importing : Importing s t claims supplied) (done : t.importUser replaceExisting draws now entry = .ok t') :
    Importing s t' claims supplied := by
  unfold Store.importUser at done
  generalize known_eq : (if (t.user? entry.username).isSome then t
    else { t with users := t.users ++ [{ username := entry.username }] } : Store) = known at done
  have tokens : known.tokens = t.tokens := by rw [← known_eq]; split <;> rfl
  have shortLinks : known.shortLinksEnabled = t.shortLinksEnabled := by rw [← known_eq]; split <;> rfl
  have profiles : known.profiles = t.profiles := by rw [← known_eq]; split <;> rfl
  have planCodes : known.planCodes = t.planCodes := by rw [← known_eq]; split <;> rfl
  have nextProfile : known.nextProfile = t.nextProfile := by rw [← known_eq]; split <;> rfl
  have kept : Importing s known claims supplied :=
    ⟨tokens ▸ importing.apart, tokens ▸ importing.keys, fun enabled =>
      tokens ▸ importing.clear (shortLinks ▸ enabled),
      tokens ▸ importing.grown, shortLinks.trans importing.shortLinks, profiles.trans importing.profiles,
      planCodes.trans importing.planCodes, nextProfile.trans importing.nextProfile⟩
  split at done
  · exact Except.ok.inj done ▸ kept
  · rename_i links given
    split at done
    · rename_i taken
      -- A user whose row is missing now had none when the import was analysed.
      have wanted : ((s.token? entry.username).isNone || replaceExisting) = true := by
        rcases Bool.or_eq_true_iff.mp taken with missing | replaces
        · refine Bool.or_eq_true_iff.mpr (.inl ?_)
          cases present : s.token? entry.username with
          | none => rfl
          | some row =>
            obtain ⟨here, named⟩ := token?_some present
            obtain ⟨row', there, named'⟩ := importing.grown row here
            have unknown : t.token? entry.username = none := by simpa using missing
            exact absurd (named'.trans named) (token?_none unknown row' there)
        · exact Bool.or_eq_true_iff.mpr (.inr replaces)
      have held := claimed links given wanted
      obtain ⟨_, _, done⟩ := bind_eq_ok done
      obtain ⟨users, grown⟩ := importRow_users now kept.apart.1 entry links
      have written (row : Token) (here : row ∈ (known.importRow now entry links).tokens) :
          row ∈ known.tokens ∨ ∀ key ∈ row.keys, (row.username, key) ∈ claims ∧ key ∈ supplied := by
        rcases mem_importRow here with ⟨old, _⟩ | ⟨named, keys⟩
        · exact .inl old
        · exact .inr fun key mine => named ▸ held key (keys ▸ mine)
      have same : (known.importRow now entry links).shortLinksEnabled = known.shortLinksEnabled ∧
          (known.importRow now entry links).profiles = known.profiles ∧
          (known.importRow now entry links).planCodes = known.planCodes ∧
          (known.importRow now entry links).nextProfile = known.nextProfile := by
        unfold Store.importRow
        split <;> exact ⟨rfl, rfl, rfl, rfl⟩
      have widened : ∀ row ∈ s.tokens, ∃ row' ∈ (known.importRow now entry links).tokens,
          row'.username = row.username := by
        intro row here
        obtain ⟨middle, there, named⟩ := kept.grown row here
        obtain ⟨row', there', named'⟩ := grown middle there
        exact ⟨row', there', named'.trans named⟩
      split at done
      · rename_i enabled
        cases done
        have clear := kept.clear (same.1 ▸ enabled)
        refine ⟨⟨users, kept.apart.2.write clear compatible fun row here =>
            (written row here).imp_right fun each key mine => (each key mine).1⟩, fun row here key mine => ?_,
          fun _ => clear.write compatible fun row here => (written row here).imp_right fun each key mine =>
            (each key mine).1,
          widened, same.1.trans kept.shortLinks, same.2.1.trans kept.profiles, same.2.2.1.trans kept.planCodes,
          same.2.2.2.trans kept.nextProfile⟩
        rcases written row here with old | each
        · exact kept.keys row old key mine
        · exact .inl (each key mine).2
      · rename_i disabled
        obtain ⟨writes, owned, named⟩ := rotate_writes users (fun row here other there apart apart' => by
          have before {row : Token} (here : row ∈ (known.importRow now entry links).tokens)
              (other : row.username ≠ entry.username) : row ∈ known.tokens :=
            (mem_importRow here).elim (·.1) fun ⟨mine, _⟩ => absurd mine other
          exact kept.apart.2 row (before here apart) other (before there apart')) done
        refine ⟨writes.apart, fun row here key mine => ?_, fun enabled => ?_, fun row here => ?_,
          writes.shortLinks.trans (same.1.trans kept.shortLinks),
            writes.profiles.trans (same.2.1.trans kept.profiles),
          writes.planCodes.trans (same.2.2.1.trans kept.planCodes),
            writes.nextProfile.trans (same.2.2.2.trans kept.nextProfile)⟩
        · rcases writes.keys row here key mine with new | ⟨old, before, sameName, its⟩
          · exact .inl (drawn key new)
          · rcases written old before with was | each
            · obtain found | ⟨first, began, firstName, firstKey⟩ := kept.keys old was key its
              · exact .inl found
              · exact .inr ⟨first, began, firstName.trans sameName, firstKey⟩
            · exact .inl (each key its).2
        · exact absurd (writes.shortLinks ▸ enabled) disabled
        · obtain ⟨middle, there, sameName⟩ := widened row here
          have listed : middle.username ∈ t'.tokens.map (·.username) := named ▸ mem_map_of_mem there
          obtain ⟨row', there', named'⟩ := List.mem_map.mp listed
          exact ⟨row', there', named'.trans sameName⟩
    · exact Except.ok.inj done ▸ kept

/-- The keys that an import supplies. -/
def Bundle.keys (bundle : Bundle) : List String :=
  bundle.users.flatMap fun entry => entry.links.elim [] (·.keys)

theorem importUsers_writes (apart : TokensApart s.tokens)
    (accepted : Claims.collides fold (Claims.stored Token.username Token.keys fold s.tokens) []
      (s.incomingKeys bundle replaceExisting) = false)
    (done : bundle.users.foldlM (Store.importUser replaceExisting draws now) s = .ok t) :
    Writes s t (bundle.keys ++ draws.keys) := by
  obtain ⟨clear, compatible⟩ := apart.2.accepted accepted
  have start : Importing s s (s.incomingKeys bundle replaceExisting) (bundle.keys ++ draws.keys) :=
    ⟨apart, .refl _ _, fun _ => clear, fun row here => ⟨row, here, rfl⟩, rfl, rfl, rfl, rfl⟩
  have ended := foldlM_keeps (P := fun t =>
    Importing s t (s.incomingKeys bundle replaceExisting) (bundle.keys ++ draws.keys))
    (fun entry here middle next importing turn => by
      refine importUser_importing compatible (fun key drawn => mem_append_right _ drawn)
        (fun links given wanted key mine => ⟨?_, ?_⟩) importing turn
      · refine List.mem_flatMap.mpr ⟨entry, here, ?_⟩
        rw [if_pos wanted, Option.mem_def.mp given]
        exact List.mem_map.mpr ⟨key, mine, rfl⟩
      · refine mem_append_left _ (List.mem_flatMap.mpr ⟨entry, here, ?_⟩)
        rw [Option.mem_def.mp given]
        exact mine) start done
  exact ⟨ended.apart, ended.keys, ended.shortLinks, ended.profiles, ended.planCodes, ended.nextProfile⟩

end Import

section Profiles

/-- The codes of one source's profile are not those of another. -/
def ProfilesApart (profiles : List Profile) : Prop :=
  (profiles.map (·.legacySourceId)).Nodup ∧ Claims.Apart Profile.legacySourceId Profile.codes fold profiles

variable {s t : Store} {bundle : Bundle} {replaceExisting : Bool}

variable {profiles : List Profile}

theorem ProfilesApart.map (apart : ProfilesApart profiles) {set : Profile → Profile}
    (source : ∀ profile, (set profile).legacySourceId = profile.legacySourceId)
    (codes : ∀ profile, (set profile).codes = profile.codes) : ProfilesApart (profiles.map set) := by
  refine ⟨?_, apart.2.mono fun profile here => ?_⟩
  · have same : (profiles.map set).map (·.legacySourceId) = profiles.map (·.legacySourceId) := by
      rw [map_map]
      exact map_congr_left fun profile _ => source profile
    rw [same]
    exact apart.1
  · obtain ⟨old, before, rfl⟩ := List.mem_map.mp here
    exact ⟨old, before, (source old).symm, fun key mine => codes old ▸ mine⟩

theorem ProfilesApart.filter (apart : ProfilesApart profiles) (p : Profile → Bool) :
    ProfilesApart (profiles.filter p) :=
  ⟨apart.1.sublist (List.filter_sublist.map _), apart.2.mono fun profile here =>
    ⟨profile, mem_of_mem_filter here, rfl, fun _ mine => mine⟩⟩

/-- What holds between the turns of `apply` for profiles. -/
structure ImportingProfiles (s t : Store) (claims : List (Nat × String)) : Prop where
  apart : ProfilesApart t.profiles
  clear : Claims.Clear Profile.legacySourceId Profile.codes fold t.profiles claims
  grown : ∀ profile ∈ s.profiles, ∃ profile' ∈ t.profiles, profile'.legacySourceId = profile.legacySourceId
  tokens : t.tokens = s.tokens
  shortLinks : t.shortLinksEnabled = s.shortLinksEnabled

variable {claims : List (Nat × String)}

theorem importProfile_importing {entry : LegacyProfile} (compatible : Claims.Compatible fold claims)
    (claimed : ((s.profiles.all (·.legacySourceId != entry.sourceId)) || replaceExisting) = true →
      ∀ code ∈ entry.codes, (entry.sourceId, code) ∈ claims)
    (importing : ImportingProfiles s t claims) :
    ImportingProfiles s (t.importProfile replaceExisting entry) claims := by
  unfold Store.importProfile
  split
  · dsimp only
    split
    · rename_i replaces
      have held := claimed (Bool.or_eq_true_iff.mpr (.inr replaces))
      let set (profile : Profile) : Profile :=
        { profile with
          ownerUsername := entry.ownerUsername
          enabled := !entry.rawOutput
          legacyFileShortCode := some entry.fileShortCode
          legacyCustomShortCode := entry.customShortCode
          assignedUsernames := entry.assignedUsernames }
      have each : ∀ profile ∈ Rows.update (·.legacySourceId == entry.sourceId) set t.profiles,
          profile ∈ t.profiles ∨ ∀ code ∈ profile.codes, (profile.legacySourceId, code) ∈ claims := by
        intro profile here
        obtain ⟨old, before, ⟨target, rfl⟩ | ⟨_, rfl⟩⟩ := mem_update here
        · refine .inr fun code mine => ?_
          have source : old.legacySourceId = entry.sourceId := by simpa using target
          exact source ▸ held code mine
        · exact .inl before
      refine ⟨⟨nodup_update (fun _ => rfl) importing.apart.1,
        importing.apart.2.write importing.clear compatible each⟩,
        importing.clear.write compatible each, fun profile here => ?_, importing.tokens, importing.shortLinks⟩
      obtain ⟨old, before, same⟩ := importing.grown profile here
      by_cases target : old.legacySourceId = entry.sourceId
      · exact ⟨set old, update_selected before (by simpa using target), same⟩
      · exact ⟨old, update_other before (by simpa using target), same⟩
    · exact importing
  · rename_i absent
    have unknown : ∀ profile ∈ t.profiles, profile.legacySourceId ≠ entry.sourceId := by simpa using absent
    have missing : s.profiles.all (·.legacySourceId != entry.sourceId) = true := by
      refine List.all_eq_true.mpr fun profile here => ?_
      obtain ⟨profile', there, same⟩ := importing.grown profile here
      simpa using same ▸ unknown profile' there
    have held := claimed (Bool.or_eq_true_iff.mpr (.inl missing))
    have each : ∀ profile ∈ t.profiles ++
          [{ id := t.nextProfile
             ownerUsername := entry.ownerUsername
             enabled := !entry.rawOutput
             legacySourceId := entry.sourceId
             legacyFileShortCode := some entry.fileShortCode
             legacyCustomShortCode := entry.customShortCode
             assignedUsernames := entry.assignedUsernames }],
        profile ∈ t.profiles ∨ ∀ code ∈ profile.codes, (profile.legacySourceId, code) ∈ claims := by
      intro profile here
      rcases List.mem_append.mp here with old | new
      · exact .inl old
      · obtain rfl := List.mem_singleton.mp new
        exact .inr fun code mine => held code mine
    refine ⟨⟨nodup_append importing.apart.1 unknown, importing.apart.2.write importing.clear compatible each⟩,
      importing.clear.write compatible each, fun profile here => ?_, importing.tokens, importing.shortLinks⟩
    obtain ⟨old, before, same⟩ := importing.grown profile here
    exact ⟨old, mem_append_left _ before, same⟩

theorem importProfiles_importing (replaceExisting : Bool) (compatible : Claims.Compatible fold claims)
    {entries : List LegacyProfile}
    (claimed : ∀ entry ∈ entries, ((s.profiles.all (·.legacySourceId != entry.sourceId)) || replaceExisting) =
      true → ∀ code ∈ entry.codes, (entry.sourceId, code) ∈ claims)
    (importing : ImportingProfiles s t claims) :
    ImportingProfiles s (entries.foldl (Store.importProfile replaceExisting) t) claims := by
  induction entries generalizing t with
  | nil => exact importing
  | cons entry entries ih =>
    exact ih (fun other later => claimed other (mem_cons_of_mem entry later))
      (importProfile_importing compatible (claimed entry mem_cons_self) importing)

theorem importPackages_same (packages : List LegacyPackage) :
    (packages.foldl Store.importPackage t).tokens = t.tokens ∧ (packages.foldl Store.importPackage t).profiles =
      t.profiles ∧
      (packages.foldl Store.importPackage t).shortLinksEnabled = t.shortLinksEnabled := by
  induction packages generalizing t with
  | nil => exact ⟨rfl, rfl, rfl⟩
  | cons package packages ih =>
    have turn : (t.importPackage package).tokens = t.tokens ∧ (t.importPackage package).profiles = t.profiles ∧
        (t.importPackage package).shortLinksEnabled = t.shortLinksEnabled := by
      unfold Store.importPackage
      split
      · exact ⟨rfl, rfl, rfl⟩
      · split
        · split <;> exact ⟨rfl, rfl, rfl⟩
        · exact ⟨rfl, rfl, rfl⟩
    obtain ⟨tokens, profiles, shortLinks⟩ := ih (t := t.importPackage package)
    exact ⟨tokens.trans turn.1, profiles.trans turn.2.1, shortLinks.trans turn.2.2⟩

end Profiles

section Runs

/-- What holds of the tables between requests. -/
structure Store.Sound (s : Store) : Prop where
  tokens : TokensApart s.tokens
  profiles : ProfilesApart s.profiles

/-- The keys that a request may bring in. -/
def Event.supplies : Event → List String
  | .issue _ _ draws _ | .restart _ _ draws _ => draws.keys
  | .setShortCode _ code _ draws _ => strip code :: draws.keys
  | .importIdentities bundle _ _ draws _ => bundle.keys ++ draws.keys
  | _ => []

variable {s t : Store}

theorem importIdentities_sound (sound : s.Sound) {bundle : Bundle} {replaceExisting blocked : Bool}
    {draws : Draws} {now : Nat}
    (done : s.importIdentities bundle replaceExisting draws now blocked = .ok t) :
    t.Sound ∧ KeysFrom s.tokens t.tokens (bundle.keys ++ draws.keys) := by
  obtain ⟨_, _, done⟩ := bind_eq_ok done
  obtain ⟨_, checked, done⟩ := bind_eq_ok done
  obtain ⟨imported, users, done⟩ := bind_eq_ok done
  cases done
  have ready := (require_ok checked).2
  simp only [Store.ready, Bool.and_eq_true, Bool.not_eq_true'] at ready
  obtain ⟨⟨⟨_, keys⟩, _⟩, codes⟩ := ready
  have writes := importUsers_writes sound.tokens keys users
  obtain ⟨tokens, profiles, shortLinks⟩ := importPackages_same (t := imported) bundle.packages
  obtain ⟨clear, compatible⟩ := sound.profiles.2.accepted codes
  have same : (bundle.packages.foldl Store.importPackage imported).profiles =
      s.profiles := profiles.trans writes.profiles
  have start : ImportingProfiles { s with tokens := imported.tokens, shortLinksEnabled :=
    imported.shortLinksEnabled }
      (bundle.packages.foldl Store.importPackage imported) (s.incomingProfileCodes bundle replaceExisting) :=
    ⟨same ▸ sound.profiles, same ▸ clear, fun profile here => ⟨profile, same ▸ here, rfl⟩, tokens, shortLinks⟩
  have ended := importProfiles_importing replaceExisting compatible
    (fun entry here wanted code mine => by
      refine List.mem_flatMap.mpr ⟨entry, here, ?_⟩
      rw [if_pos wanted]
      exact List.mem_map.mpr ⟨code, mine, rfl⟩) start
  exact ⟨⟨ended.tokens ▸ writes.apart, ended.apart⟩, ended.tokens ▸ writes.keys⟩

theorem Writes.sound {supplied : List String} (writes : Writes s t supplied) (sound : s.Sound) : t.Sound :=
  ⟨writes.apart, writes.profiles ▸ sound.profiles⟩

theorem request_sound (sound : s.Sound) {event : Event} (done : s.request event = .ok t) :
    t.Sound ∧ KeysFrom s.tokens t.tokens event.supplies := by
  cases event with
  | createUser username =>
    obtain ⟨_, _, done⟩ := bind_eq_ok done
    obtain ⟨_, _, done⟩ := bind_eq_ok done
    cases done
    exact ⟨⟨sound.tokens, sound.profiles⟩, .refl _ _⟩
  | removeUser username =>
    obtain ⟨user, _, done⟩ := bind_eq_ok done
    cases done
    exact ⟨⟨sound.tokens.filter _, sound.profiles⟩, .subset fun _ here => mem_of_mem_filter here⟩
  | finishRemoval username =>
    obtain ⟨user, _, done⟩ := bind_eq_ok done
    obtain ⟨_, _, done⟩ := bind_eq_ok done
    cases done
    exact ⟨⟨sound.tokens.filter _, (sound.profiles.filter _).map (fun _ => rfl) fun _ => rfl⟩,
      .subset fun _ here => mem_of_mem_filter here⟩
  | issue username reset draws now =>
    have writes := (issue_writes sound.tokens done).1
    exact ⟨writes.sound sound, writes.keys⟩
  | setShortCode username code expected draws now =>
    have writes := (setShortCode_writes sound.tokens done).1
    exact ⟨writes.sound sound, writes.keys⟩
  | importIdentities bundle replaceExisting blocked draws now => exact importIdentities_sound sound done
  | updateProfile identifier payload =>
    obtain ⟨profile, _, done⟩ := bind_eq_ok done
    obtain ⟨_, _, done⟩ := bind_eq_ok done
    obtain ⟨_, _, done⟩ := bind_eq_ok done
    cases done
    refine ⟨⟨sound.tokens, sound.profiles.map (fun other => ?_) fun other => ?_⟩, .refl _ _⟩
    · split <;> rfl
    · split <;> rfl
  | setProviders providers =>
    cases done
    exact ⟨⟨sound.tokens, sound.profiles⟩, .refl _ _⟩
  | restart sqlite shortLinksEnabled draws now =>
    unfold Store.request at done
    dsimp only at done
    split at done
    · have before : TokensApart (Store.tokens { s with shortLinksEnabled := shortLinksEnabled }) := sound.tokens
      have writes := rotateLegacy_writes before done
      exact ⟨writes.sound ⟨sound.tokens, sound.profiles⟩, writes.keys⟩
    · cases done
      exact ⟨⟨sound.tokens, sound.profiles⟩, .refl _ _⟩

theorem step_sound (sound : s.Sound) (event : Event) :
    (s.step event).Sound ∧ KeysFrom s.tokens (s.step event).tokens event.supplies := by
  unfold Store.step
  split
  · exact request_sound sound ‹_›
  · exact ⟨sound, .refl _ _⟩

theorem run_sound (sound : s.Sound) (events : List Event) :
    (s.run events).Sound ∧ KeysFrom s.tokens (s.run events).tokens (events.flatMap (·.supplies)) := by
  induction events generalizing s with
  | nil => exact ⟨sound, .refl _ _⟩
  | cons event events ih =>
    obtain ⟨first, keys⟩ := step_sound sound event
    obtain ⟨rest, keys'⟩ := ih first
    have wider : KeysFrom s.tokens (s.step event).tokens ((event :: events).flatMap (·.supplies)) :=
      fun row here key mine => (keys row here key mine).imp_left fun drawn => mem_append_left _ drawn
    exact ⟨rest, wider.trans fun row here key mine =>
      (keys' row here key mine).imp_left fun drawn => mem_append_right _ drawn⟩

theorem empty_sound : Store.Sound {} :=
  ⟨⟨.nil, fun _ here => absurd here not_mem_nil⟩, ⟨.nil, fun _ here => absurd here not_mem_nil⟩⟩

theorem resolve_some {key username : String} (resolved : s.resolve key = some username) :
    ∃ row ∈ s.tokens, row.username = username ∧ strip key ∈ row.keys ∧
      (s.shortLinksEnabled = false → strip key = row.token ∧ row.bearerGeneration = .secure) := by
  unfold Store.resolve at resolved
  dsimp only at resolved
  split at resolved
  · exact nomatch resolved
  · obtain ⟨row, found, rfl⟩ := Option.map_eq_some_iff.mp resolved
    have here := mem_of_find?_eq_some found
    have matched := List.find?_some found
    refine ⟨row, here, rfl, ?_⟩
    split at matched
    · rename_i enabled
      exact ⟨of_decide_eq_true matched, fun disabled => nomatch enabled.symm.trans disabled⟩
    · obtain ⟨same, secure⟩ : row.token = strip key ∧ row.bearerGeneration = .secure := by simpa using matched
      exact ⟨same ▸ mem_cons_self, fun _ => ⟨same.symm, secure⟩⟩

end Runs

/-- Subscription keys identify one subscriber, after any requests. -/
theorem keys_identify (events : List Event) :
    let s := Store.run {} events
    (∀ row ∈ s.tokens, ∀ other ∈ s.tokens, row.username ≠ other.username →
      ∀ key ∈ row.keys, ∀ key' ∈ other.keys, fold key ≠ fold key') ∧
    (∀ username code expected draws now t, s.request (.setShortCode username code expected draws now) = .ok t →
      strip code ≠ "" → (∀ row ∈ t.tokens, row.username = strip username →
        row.customShortCode = some (strip code)) ∧
        ∀ user ∈ t.users, user.username ≠ strip username → fold user.username ≠ fold (strip code)) ∧
    (∀ key username, s.resolve key = some username →
      ∃ row ∈ s.tokens, row.username = username ∧ strip key ∈ row.keys ∧
        (s.shortLinksEnabled = false → strip key = row.token ∧ row.bearerGeneration = .secure)) ∧
    (∀ username draws now t, s.request (.issue username true draws now) = .ok t →
      ∀ row ∈ s.tokens, row.username = strip username → ∀ key ∈ row.keys, key ∉ draws.keys →
        ∀ later, key ∉ later.flatMap Event.supplies → ∀ spelling, strip spelling = key →
          (t.run later).resolve spelling = none) ∧
    ∀ event error, s.request event = .error error → s.step event = s := by
  intro s
  have sound : s.Sound := (run_sound empty_sound events).1
  refine ⟨sound.tokens.2, ?_, fun key username => resolve_some, ?_, ?_⟩
  · intro username code expected draws now t done set
    exact (setShortCode_writes sound.tokens done).2 set
  · intro username draws now t done row here named key mine undrawn later unsupplied spelling spelled
    obtain ⟨writes, owned, _⟩ := issue_writes sound.tokens done
    -- After the reset nobody has the key: its owner has drawn keys, and the others never had it.
    have free : ∀ other ∈ t.tokens, key ∉ other.keys := by
      intro other there held
      rcases writes.keys other there key held with drawn | ⟨old, before, same, its⟩
      · exact undrawn drawn
      · by_cases owner : old.username = strip username
        · exact undrawn (owned rfl other there (same.symm.trans owner) key held)
        · exact sound.tokens.2 row here old before (fun equal =>
            owner (equal.symm.trans named)) key mine key its rfl
    cases resolved : (t.run later).resolve spelling with
    | none => rfl
    | some user =>
      obtain ⟨other, there, _, held, _⟩ := resolve_some resolved
      rcases (run_sound (writes.sound sound) later).2 other there _ held with supplied | ⟨old, before, _, its⟩
      · exact absurd (spelled ▸ supplied) unsupplied
      · exact absurd (spelled ▸ its) (free old before)
  · intro event error refused
    unfold Store.step
    rw [refused]

/-- A key with a space in front resolves and is nobody's key. -/
theorem spaced_key_resolves :
    let s := Store.run {} [.createUser "ann", .issue "ann" false { tokens := ["token"], codes := ["c0de0000"] } 0]
    s.resolve " token" = some "ann" ∧ ∀ row ∈ s.tokens, " token" ∉ row.keys := by
  decide +kernel

end OpenNode.SubscriptionKeys
