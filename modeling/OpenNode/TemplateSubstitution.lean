import OpenNode.TemplateRendering

namespace OpenNode.Templates

open List Replacement

/-- Where a character of a rendered text is from: the template, outside of its
holes or in one, or the value of a key. -/
inductive Origin where
  | plain
  | hole
  | value (key : String)
deriving DecidableEq, Repr

/-- A text whose characters know where they are from. -/
abbrev Traced := List (Char × Origin)

abbrev Entries := List (String × String)

def fromValue (entry : String × String) : Traced := entry.2.toList.map fun c => (c, .value entry.1)

def fromHole (name : String) : Traced := (placeholder name).map fun c => (c, .hole)

theorem fromHole_fst (name : String) : (fromHole name).map Prod.fst = placeholder name := by
  rw [fromHole, map_map]
  exact map_id _

theorem fromValue_fst (entry : String × String) : (fromValue entry).map Prod.fst = entry.2.toList := by
  rw [fromValue, map_map]
  exact map_id _

/-- What a token is replaced by. A hole without a value stays. -/
def Token.block (context : Entries) : Token → Traced
  | .char c => [(c, .plain)]
  | .hole name _ =>
    match context.lookup name with
    | some value => fromValue (name, value)
    | none => fromHole name

/-- The substitution of all the holes of a text at once. -/
def substituted (context : Entries) (text : String) : Traced :=
  (tokens text.toList).flatMap (Token.block context)

/-- The turn of an entry, which tells characters apart by nothing but themselves. -/
def traceEntry (rendered : Traced) (entry : String × String) : Traced :=
  replace Prod.fst (placeholder entry.1) (fromValue entry) rendered

/-- The rendering of a text, with the origin of every character. -/
def traced (context : Entries) (text : String) : Traced :=
  context.foldl traceEntry (substituted [] text)

/-- An entry replaces nothing but holes in a text. -/
def ReplacesHoles (entry : String × String) (rendered : Traced) : Prop :=
  ∀ occurrence ∈ occurrences Prod.fst (placeholder entry.1) rendered, ∀ c ∈ occurrence, c.2 = .hole

/-- In the text with the earlier entries substituted, every placeholder of the
next one is a hole of the template. -/
def Clean (context : Entries) (text : String) : Prop :=
  ∀ before entry after, context = before ++ entry :: after → ReplacesHoles entry (substituted before text)

/-- The document with all placeholders of its texts replaced at once. -/
def substitute (context : Entries) (value : Json) : Json :=
  mapTexts (fun text => String.ofList ((substituted context text).map Prod.fst)) value

/-- The rendering is the substitution of all placeholders at once, also as to
where the characters are from. -/
def Simultaneous (context : Dict String String) (value : Json) : Prop :=
  renderTemplate context value = substitute context.entries value ∧
    ∀ text ∈ texts value, traced context.entries text = substituted context.entries text

section Erasure

variable {context : Entries} {text : String}

theorem block_nil (token : Token) : (token.block []).map Prod.fst = token.source := by
  cases token with
  | char c => rfl
  | hole name plain => exact fromHole_fst name

theorem substituted_nil (text : String) : (substituted [] text).map Prod.fst = text.toList := by
  rw [substituted, map_flatMap]
  simp only [block_nil]
  exact tokens_source text.toList

theorem traceEntry_fst (rendered : Traced) (entry : String × String) :
    (traceEntry rendered entry).map Prod.fst = replaceEntry (rendered.map Prod.fst) entry := by
  have shown : (traceEntry rendered entry).map Prod.fst =
      replace id (placeholder entry.1) ((fromValue entry).map Prod.fst) (rendered.map Prod.fst) :=
    map_replace Prod.fst id (fun _ => rfl) rendered
  rw [shown, fromValue_fst, replaceEntry]

theorem traced_fst (context : Entries) (text : String) :
    String.ofList ((traced context text).map Prod.fst) = renderText context text := by
  have fold : ∀ rendered : Traced, (context.foldl traceEntry rendered).map Prod.fst =
      context.foldl replaceEntry (rendered.map Prod.fst) := by
    induction context with
    | nil => exact fun _ => rfl
    | cons entry rest ih =>
      intro rendered
      rw [foldl_cons, foldl_cons, ih, traceEntry_fst]
  rw [traced, fold, substituted_nil, renderText]

end Erasure

section Placeholders

variable {key name : String}

theorem placeholder_ne_nil (key : String) : placeholder key ≠ [] :=
  cons_ne_nil _ _

theorem closed_name {a b : List Char} (plainA : closeBrace ∉ a) (plainB : closeBrace ∉ b) {rest : List Char}
    (begins : a ++ [closeBrace] <+: b ++ closeBrace :: rest) : a = b := by
  induction a generalizing b with
  | nil =>
    cases b with
    | nil => rfl
    | cons c b =>
      have first := (List.cons_prefix_cons.mp begins).1
      exact absurd (first ▸ mem_cons_self) plainB
  | cons c a ih =>
    cases b with
    | nil =>
      have first := (List.cons_prefix_cons.mp begins).1
      exact absurd (first ▸ mem_cons_self) plainA
    | cons d b =>
      obtain ⟨rfl, later⟩ := List.cons_prefix_cons.mp begins
      rw [ih (fun here => plainA (mem_cons_of_mem _ here)) (fun here => plainB (mem_cons_of_mem _ here)) later]

theorem placeholder_apart (plainKey : Plain key) (plainName : Plain name) (differs : key ≠ name)
    {tail rest : List Char}
    (inside : tail <:+ placeholder name) (nonempty : tail ≠ []) : ¬ placeholder key <+: tail ++ rest := by
  intro begins
  rcases List.suffix_cons_iff.mp inside with rfl | inner
  · have later : key.toList ++ [closeBrace] <+: name.toList ++ closeBrace :: rest := by
      simpa using (List.cons_prefix_cons.mp begins).2
    exact differs (String.toList_inj.mp (closed_name plainKey.2 plainName.2 later))
  · obtain ⟨c, tail, rfl⟩ := exists_cons_of_ne_nil nonempty
    have first : openBrace = c := (List.cons_prefix_cons.mp begins).1
    have member : c ∈ name.toList ++ [closeBrace] := inner.subset mem_cons_self
    rcases List.mem_append.mp member with named | closing
    · exact plainName.1 (first ▸ named)
    · rw [mem_singleton, ← first] at closing
      exact absurd closing (by decide)

end Placeholders

section Steps

variable {entry : String × String} {part rest : Traced}

theorem ReplacesHoles.cons {o : Traced}
    (clean : ∀ occurrence ∈ o :: occurrences Prod.fst (placeholder entry.1) rest,
    ∀ c ∈ occurrence, c.2 = .hole) : ReplacesHoles entry rest :=
  fun occurrence here => clean occurrence (mem_cons_of_mem o here)

theorem traceEntry_kept (other : ∀ c ∈ part, c.2 ≠ .hole) (clean : ReplacesHoles entry (part ++ rest)) :
    traceEntry (part ++ rest) entry = part ++ traceEntry rest entry ∧ ReplacesHoles entry rest := by
  induction part with
  | nil => exact ⟨rfl, clean⟩
  | cons c part ih =>
    by_cases here : placeholder entry.1 <+: (c :: (part ++ rest)).map Prod.fst
    · have found : (c :: (part ++ rest)).take (placeholder entry.1).length ∈
          occurrences Prod.fst (placeholder entry.1) (c :: (part ++ rest)) := by
        rw [occurrences_cons, if_pos (List.isPrefixOf_iff_prefix.mpr here)]
        exact mem_cons_self
      exact absurd (clean _ found c mem_cons_self) (other c mem_cons_self)
    · have first : replace Prod.fst (placeholder entry.1) (fromValue entry) (c :: (part ++ rest)) = _ ∧ _ :=
        replace_cons_other here
      have clean' : ReplacesHoles entry (part ++ rest) := by
        rw [ReplacesHoles, ← first.2]
        exact clean
      obtain ⟨kept, others⟩ := ih (fun d later => other d (mem_cons_of_mem _ later)) clean'
      exact ⟨first.1.trans (congrArg (c :: ·) kept), others⟩

theorem traceEntry_hole (plainEntry : Plain entry.1) {name : String} (plainName : Plain name)
    (clean : ReplacesHoles entry (fromHole name ++ rest)) :
    traceEntry (fromHole name ++ rest) entry =
      (if name = entry.1 then fromValue entry else fromHole name) ++ traceEntry rest entry ∧
    ReplacesHoles entry rest := by
  by_cases same : name = entry.1
  · have found : replace Prod.fst (placeholder entry.1) (fromValue entry) (fromHole name ++ rest) = _ ∧ _ :=
      replace_occurrence (by rw [fromHole_fst, same]) (placeholder_ne_nil _)
    rw [ReplacesHoles, found.2] at clean
    rw [if_pos same]
    exact ⟨found.1, .cons clean⟩
  · have none : ∀ tail, tail <:+ fromHole name → tail ≠ [] →
        ¬ placeholder entry.1 <+: (tail ++ rest).map Prod.fst := by
      rintro tail ⟨left, whole⟩ nonempty begins
      have seen : tail.map Prod.fst <:+ placeholder name := by
        refine ⟨left.map Prod.fst, ?_⟩
        rw [← map_append, whole, fromHole_fst]
      rw [map_append] at begins
      exact placeholder_apart plainEntry plainName (Ne.symm same) seen (by simpa using nonempty) begins
    have apart : replace Prod.fst (placeholder entry.1) (fromValue entry) (fromHole name ++ rest) = _ ∧ _ :=
      replace_append none
    rw [ReplacesHoles, apart.2] at clean
    rw [if_neg same]
    exact ⟨apart.1, clean⟩

theorem block_char (context : Entries) (c : Char) : (Token.char c).block context = [(c, .plain)] := rfl

theorem block_hole (context : Entries) (name : String) (plain : Plain name) :
    (Token.hole name plain).block context =
      ((context.lookup name).map fun value => fromValue (name, value)).getD (fromHole name) := by
  unfold Token.block
  dsimp only
  cases context.lookup name <;> rfl

theorem lookup_snoc (before : Entries) (entry : String × String) (name : String) :
    (before ++ [entry]).lookup name = (before.lookup name).or (if name = entry.1 then some entry.2 else none) := by
  rw [lookup_append]
  congr 1
  rw [lookup_cons]
  by_cases same : name = entry.1
  · simp [same]
  · rw [if_neg same, beq_false_of_ne same]
    rfl

theorem traceEntry_substituted {before : Entries} (plain : Plain entry.1) {text : String}
    (clean : ReplacesHoles entry (substituted before text)) :
    traceEntry (substituted before text) entry = substituted (before ++ [entry]) text := by
  unfold substituted at clean ⊢
  generalize tokens text.toList = template at clean ⊢
  induction template with
  | nil => rfl
  | cons token rest ih =>
    rw [flatMap_cons] at clean
    rw [flatMap_cons, flatMap_cons]
    cases token with
    | char c =>
      have char : ∀ d ∈ [(c, Origin.plain)], d.2 ≠ .hole := by simp
      obtain ⟨kept, later⟩ := traceEntry_kept char clean
      rw [block_char, block_char, kept, ih later]
    | hole name plainName =>
      rw [block_hole] at clean ⊢
      rw [block_hole, lookup_snoc]
      cases filled : before.lookup name with
      | some value =>
        rw [filled] at clean
        have values : ∀ c ∈ fromValue (name, value), c.2 ≠ Origin.hole := by
          intro c here
          obtain ⟨_, _, rfl⟩ := List.mem_map.mp here
          exact nofun
        obtain ⟨kept, later⟩ := traceEntry_kept values clean
        exact kept.trans (by rw [ih later]; rfl)
      | none =>
        rw [filled] at clean
        obtain ⟨turned, later⟩ := traceEntry_hole plain plainName clean
        refine turned.trans ?_
        rw [ih later]
        by_cases same : name = entry.1
        · subst same
          rw [if_pos rfl, if_pos rfl]
          rfl
        · rw [if_neg same, if_neg same]
          rfl

end Steps

section Counting

variable {m : Origin} {entry : String × String}

/-- The characters of one origin. -/
def share (m : Origin) (text : Traced) : Nat := text.countP fun c => c.2 = m

theorem share_fromValue (other : m ≠ .value entry.1) : share m (fromValue entry) = 0 := by
  refine List.countP_eq_zero.mpr fun c here => ?_
  obtain ⟨_, _, rfl⟩ := List.mem_map.mp here
  simpa using Ne.symm other

theorem share_fromHole (other : m ≠ .hole) (name : String) : share m (fromHole name) = 0 := by
  refine List.countP_eq_zero.mpr fun c here => ?_
  obtain ⟨_, _, rfl⟩ := List.mem_map.mp here
  simpa using Ne.symm other

theorem share_traceEntry (other : m ≠ .value entry.1) (rendered : Traced) : share m (traceEntry rendered entry) +
      ((occurrences Prod.fst (placeholder entry.1) rendered).map (share m)).sum = share m rendered :=
  countP_replace (placeholder_ne_nil _) (share_fromValue other) rendered

theorem share_traced_le {context : Entries} (other : ∀ entry ∈ context, m ≠ .value entry.1) (rendered : Traced) :
    share m (context.foldl traceEntry rendered) ≤ share m rendered := by
  induction context generalizing rendered with
  | nil => exact le_rfl
  | cons entry rest ih =>
    have first := share_traceEntry (other entry mem_cons_self) rendered
    have later := ih (fun entry here => other entry (mem_cons_of_mem _ here)) (traceEntry rendered entry)
    rw [foldl_cons]
    omega

theorem share_substituted {before extra : Entries} (text : String) (notHole : m ≠ .hole)
    (other : ∀ entry ∈ extra, m ≠ .value entry.1) :
    share m (substituted (before ++ extra) text) = share m (substituted before text) := by
  unfold substituted share
  induction tokens text.toList with
  | nil => rfl
  | cons token rest ih =>
    rw [flatMap_cons, flatMap_cons, countP_append, countP_append, ih]
    congr 1
    cases token with
    | char c => rfl
    | hole name plain =>
      rw [block_hole, block_hole, lookup_append]
      cases before.lookup name with
      | some value => rfl
      | none =>
        refine Eq.trans ?_ (share_fromHole notHole name).symm
        cases filled : extra.lookup name with
        | none => exact share_fromHole notHole name
        | some value =>
          have member : (name, value) ∈ extra := by
            obtain ⟨left, right, whole, _⟩ := List.lookup_eq_some_iff.mp filled
            rw [whole]
            exact mem_append_right _ mem_cons_self
          exact share_fromValue (other _ member)

theorem origin_substituted {before : Entries} {text : String} {c : Char × Origin}
    (here : c ∈ substituted before text)
    (notHole : c.2 ≠ .hole) : c.2 = .plain ∨ ∃ entry ∈ before, c.2 = .value entry.1 := by
  obtain ⟨token, _, inside⟩ := List.mem_flatMap.mp here
  cases token with
  | char d =>
    rw [block_char, mem_singleton] at inside
    exact .inl (congrArg Prod.snd inside)
  | hole name plain =>
    rw [block_hole] at inside
    cases filled : before.lookup name with
    | none =>
      rw [filled] at inside
      obtain ⟨_, _, rfl⟩ := List.mem_map.mp inside
      exact absurd rfl notHole
    | some value =>
      rw [filled] at inside
      obtain ⟨_, _, rfl⟩ := List.mem_map.mp inside
      obtain ⟨left, right, whole, _⟩ := List.lookup_eq_some_iff.mp filled
      refine .inr ⟨(name, value), ?_, rfl⟩
      rw [whole]
      exact mem_append_right _ mem_cons_self

end Counting

section Exactness

variable {before rest : Entries} {entry : String × String} {text : String}

theorem traced_ne {m : Origin} {occurrence : Traced} {c : Char × Origin}
    (plain : ∀ other ∈ entry :: rest, m ≠ .value other.1)
    (notHole : m ≠ .hole) (found : occurrence ∈ occurrences Prod.fst (placeholder entry.1)
      (substituted before text))
    (here : c ∈ occurrence) (origin : c.2 = m) :
    rest.foldl traceEntry (traceEntry (substituted before text) entry) ≠
      substituted (before ++ entry :: rest) text := by
  intro same
  have first := share_traceEntry (plain entry mem_cons_self) (substituted before text)
  have later := share_traced_le (fun other inside => plain other (mem_cons_of_mem _ inside))
    (traceEntry (substituted before text) entry)
  rw [same, share_substituted text notHole plain] at later
  have taken : 0 < share m occurrence := List.countP_pos_iff.mpr ⟨c, here, by simpa using origin⟩
  have counted : share m occurrence ≤
      ((occurrences Prod.fst (placeholder entry.1) (substituted before text)).map (share m)).sum :=
    single_le_sum (fun _ _ => Nat.zero_le _) _ (mem_map_of_mem found)
  omega

theorem traced_from (distinct : ((before ++ rest).map Prod.fst).Nodup) (plain : ∀ entry ∈ rest, Plain entry.1) :
    rest.foldl traceEntry (substituted before text) = substituted (before ++ rest) text ↔
      ∀ middle entry after, rest = middle ++ entry :: after →
        ReplacesHoles entry (substituted (before ++ middle) text) := by
  induction rest generalizing before with
  | nil =>
    rw [append_nil]
    exact ⟨fun _ middle entry after split => by simp at split, fun _ => rfl⟩
  | cons entry rest ih =>
    by_cases clean : ReplacesHoles entry (substituted before text)
    · have shifted : before ++ entry :: rest = before ++ [entry] ++ rest := by simp
      have later := @ih (before ++ [entry]) (by rwa [← shifted]) fun other here =>
        plain other (mem_cons_of_mem _ here)
      rw [foldl_cons, traceEntry_substituted (plain entry mem_cons_self) clean, shifted, later]
      constructor
      · intro each middle other after split
        rcases List.cons_eq_append_iff.mp split with ⟨rfl, whole⟩ | ⟨middle, rfl, whole⟩
        · cases whole
          rwa [append_nil]
        · rw [← singleton_append, ← append_assoc]
          exact each middle other after whole
      · intro each middle other after split
        rw [append_assoc, singleton_append]
        exact each (entry :: middle) other after (by rw [split]; rfl)
    · refine iff_of_false ?_ fun each => ?_
      · simp only [ReplacesHoles, not_forall] at clean
        obtain ⟨occurrence, found, c, here, notHole⟩ := clean
        refine traced_ne (fun other inside same => ?_) notHole found here rfl
        rcases origin_substituted (mem_of_occurrence found here) notHole with isPlain | ⟨earlier, inBefore, isValue⟩
        · rw [isPlain] at same
          cases same
        · rw [isValue, Origin.value.injEq] at same
          rw [map_append] at distinct
          exact (List.nodup_append.mp distinct).2.2 _ (mem_map_of_mem inBefore) _ (mem_map_of_mem inside) same
      · have first := each [] entry rest rfl
        rw [append_nil] at first
        exact clean first

theorem substituted_perm {context other : Dict String String} (same : other.entries.Perm context.entries)
    (text : String) :
    substituted other.entries text = substituted context.entries text := by
  have lookup : ∀ name, other.entries.lookup name = context.entries.lookup name := by
    intro name
    refine Option.ext fun value => ?_
    rw [Dict.lookup_eq_some other.nodup, Dict.lookup_eq_some context.nodup, same.mem_iff]
  unfold substituted
  refine flatMap_congr fun token _ => ?_
  cases token with
  | char c => rfl
  | hole name plain => rw [block_hole, block_hole, lookup]

end Exactness

/-- A rendering is the substitution of all placeholders at once if and only if
no entry, in the order of the context, finds a placeholder that has a part of a
value in it. The substitution does not depend on that order. -/
theorem renderTemplate_simultaneous_iff (context : Dict String String) (plain : ∀ key ∈ context.keys, Plain key)
    (value : Json) :
    (Simultaneous context value ↔ ∀ text ∈ texts value, Clean context.entries text) ∧
    ∀ other : Dict String String, other.entries.Perm context.entries →
      substitute other.entries value = substitute context.entries value := by
  have exact_text : ∀ text, traced context.entries text = substituted context.entries text ↔
      Clean context.entries text := by
    intro text
    have distinct : ((([] : Entries) ++ context.entries).map Prod.fst).Nodup := context.nodup
    exact traced_from distinct fun entry here => plain entry.1 (mem_map_of_mem here)
  refine ⟨⟨fun simultaneous text here => (exact_text text).mp (simultaneous.2 text here), fun clean => ⟨?_, ?_⟩⟩,
    ?_⟩
  · refine mapTexts_congr value fun text here => ?_
    rw [← traced_fst, (exact_text text).mpr (clean text here)]
  · exact fun text here => (exact_text text).mpr (clean text here)
  · intro other same
    exact mapTexts_congr value fun text _ => by rw [substituted_perm same]

/-- A user whose display name is a placeholder. -/
def braceRecords : TemplateRecords where
  username := "ann"
  displayName := some "{credential_password}"
  credentialEmail := "ann__vless"
  nodeId := "n"
  nodeName := "node"
  protocol := "trojan"
  serverId := "s"
  serverName := "server"
  serverHost := "host"
  credential := [("password", .str "secret")]

def braceContext : Dict String String := templateContext (fun _ => "") braceRecords

theorem braceContext_plain : ∀ key ∈ braceContext.keys, Plain key := by
  decide +kernel

/-- The name of a node of this user shows the password. -/
theorem braceContext_not_simultaneous :
    ¬ Simultaneous braceContext (.str "{display_name}") ∧
    renderTemplate braceContext (.str "{display_name}") = .str "secret" := by
  have rendered : renderText braceContext.entries "{display_name}" = "secret" := by decide +kernel
  refine ⟨fun simultaneous => ?_, congrArg Json.str rendered⟩
  exact absurd (simultaneous.2 _ (mem_singleton_self _)) (by decide +kernel)

/-- Other templates are rendered as they should be. -/
theorem braceContext_simultaneous :
    Simultaneous braceContext (.obj [("name", .str "{node_name}"), ("password", .str "{password}")]) ↔
      ∀ text ∈ ["{node_name}", "{password}"], Clean braceContext.entries text :=
  (renderTemplate_simultaneous_iff braceContext braceContext_plain _).1

end OpenNode.Templates
