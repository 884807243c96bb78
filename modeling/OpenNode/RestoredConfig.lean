import OpenNode.ConfigEdits
import OpenNode.Lib.Dict

namespace OpenNode.Agent

open Assoc List

/-- Two arrays whose items agree one by one; other values are equal. -/
def SameItems (same : Json → Json → Prop) : Json → Json → Prop
  | .arr xs, .arr ys => List.Forall₂ same xs ys
  | a, b => a = b

/-- Two objects in a relation; other values are equal. -/
def SameFields (same : Fields → Fields → Prop) : Json → Json → Prop
  | .obj before, .obj after => same before after
  | a, b => a = b

/-- The containers that `edit_client` may leave empty. -/
def containerNames : List String :=
  ["clients", "users", "accounts"]

/-- An item of the settings, where a missing container reads as an empty one. -/
def settingOf (settings : Fields) (key : String) : Option Json :=
  if key ∈ containerNames then some ((settings.lookup key).getD (.arr [])) else settings.lookup key

def SameSettings (before after : Fields) : Prop :=
  ∀ key, settingOf after key = settingOf before key

/-- The domains that an inbound excludes from sniffing. -/
def excludedDomains (sniffing : Fields) : List String :=
  match sniffing.lookup "domainsExcluded" with
  | some (.arr items) => items.filterMap Json.str?
  | some (.str text) => [text]
  | _ => []

structure SameSniffing (before after : Fields) : Prop where
  others : ∀ key, key ≠ "domainsExcluded" → after.lookup key = before.lookup key
  excludes : ∀ domain ∈ excludedDomains before, domain ∈ excludedDomains after

structure SameInbound (before after : Fields) : Prop where
  others : ∀ key, key ≠ "settings" → key ≠ "sniffing" → after.lookup key = before.lookup key
  settings : SameFields SameSettings ((before.lookup "settings").getD (.obj []))
    ((after.lookup "settings").getD (.obj []))
  sniffing : SameFields SameSniffing ((before.lookup "sniffing").getD (.obj []))
    ((after.lookup "sniffing").getD (.obj []))

structure SameRule (before after : Fields) : Prop where
  others : ∀ key, key ≠ "user" → after.lookup key = before.lookup key
  users : (after.lookup "user").getD (.arr []) = (before.lookup "user").getD (.arr [])

structure SameRouting (before after : Fields) : Prop where
  others : ∀ key, key ≠ "rules" → after.lookup key = before.lookup key
  rules : SameItems (SameFields SameRule) ((before.lookup "rules").getD (.arr []))
    ((after.lookup "rules").getD (.arr []))

/-- The configuration is as before: every client, outbound and routing rule is
still there, with its content, and no other. -/
structure Restored (before after : Fields) : Prop where
  others : ∀ key, key ∉ ["inbounds", "outbounds", "routing"] → after.lookup key = before.lookup key
  inbounds : SameItems (SameFields SameInbound) ((before.lookup "inbounds").getD (.arr []))
    ((after.lookup "inbounds").getD (.arr []))
  outbounds : (after.lookup "outbounds").getD (.arr []) = (before.lookup "outbounds").getD (.arr [])
  routing : SameFields SameRouting ((before.lookup "routing").getD (.obj []))
    ((after.lookup "routing").getD (.obj []))

variable {selects : Fields → Bool} {entry : Fields}

theorem removeEntry_insertIdx (selected : selects entry = true) (entries : List Fields) (index : Nat) :
    removeEntry selects (entries.insertIdx index entry) = removeEntry selects entries := by
  unfold removeEntry
  induction entries generalizing index with
  | nil => cases index <;> simp [selected]
  | cons first rest ih =>
    cases index with
    | zero => simp [selected]
    | succ index => simp only [insertIdx_succ_cons, filter_cons, ih]

variable {entries : List Fields}

theorem removeEntry_eq_self : removeEntry selects entries = entries ↔ ∀ entry ∈ entries, selects entry = false := by
  rw [removeEntry, filter_eq_self]
  simp

theorem removeEntry_idem : removeEntry selects (removeEntry selects entries) = removeEntry selects entries := by
  rw [removeEntry_eq_self]
  intro entry member
  simpa using (List.mem_filter.mp member).2

theorem insertIdx_removeEntry (selected : selects entry = true) :
    (removeEntry selects entries).insertIdx
        (min ((entries.findIdx? selects).getD (removeEntry selects entries).length)
          (removeEntry selects entries).length)
        entry = entries ↔ entries.filter selects = [entry] := by
  constructor
  · intro same
    have perm := (perm_insertIdx entry (removeEntry selects entries)
      (Nat.min_le_right ((entries.findIdx? selects).getD (removeEntry selects entries).length) _)).filter selects
    have none_ : (removeEntry selects entries).filter selects = [] :=
      filter_eq_nil_iff.mpr fun other member => by simpa using (List.mem_filter.mp member).2
    rw [same, filter_cons_of_pos selected, none_] at perm
    exact perm_singleton.mp perm
  · intro only
    obtain ⟨front, back, rfl, free, -, rest⟩ := filter_eq_cons_iff.mp only
    have kept : removeEntry selects (front ++ entry :: back) = front ++ back := by
      rw [removeEntry, filter_append, filter_cons_of_neg (by simp [selected]), filter_eq_self.mpr,
        filter_eq_self.mpr]
      · intro other member
        simpa using filter_eq_nil_iff.mp rest other member
      · intro other member
        simpa using free other member
    have place : (front ++ entry :: back).findIdx? selects = some front.length := by
      rw [findIdx?_append, findIdx?_eq_none_iff.mpr fun other member => by simpa using free other member,
        findIdx?_cons, if_pos selected]
      simp
    rw [kept, place, Option.getD_some, Nat.min_eq_left (by simp)]
    clear free kept place only
    induction front with
    | nil => rfl
    | cons first front ih => exact congrArg (first :: ·) ih

/-- The fields that the options of an inbound write. -/
def optionFields (options : Option SnellOptions) : Fields :=
  (options.map SnellOptions.fields).getD []

theorem optionFields_nodup (options : Option SnellOptions) : ((optionFields options).map Prod.fst).Nodup := by
  rcases options with _ | ⟨mode⟩ | ⟨version, mode, host⟩ <;> simp [optionFields, SnellOptions.fields]

variable {options : Option SnellOptions} {key : String}

theorem optionFields_container (member : key ∈ (optionFields options).map Prod.fst) : key ∉ containerNames := by
  rcases options with _ | ⟨mode⟩ | ⟨version, mode, host⟩ <;>
    simp [optionFields, SnellOptions.fields, containerNames] at member ⊢ <;>
      rcases member with rfl | rfl | rfl <;> decide

variable {container : String}

theorem clientContainer_mem {protocol : String} (found : clientContainer protocol = some container) :
    container ∈ containerNames := by
  unfold clientContainer at found
  split at found <;> cases found <;> decide

/-- The settings with the clients and the options that were written. -/
structure Written (settings : Fields) (options : Option SnellOptions) (container : String) (clients : List Fields)
    (after : Fields) : Prop where
  atClients : after.lookup container = some (.arr (clients.map .obj))
  stated : ∀ field ∈ optionFields options, after.lookup field.1 = some field.2
  others : ∀ key, key ≠ container → key ∉ (optionFields options).map Prod.fst →
    after.lookup key = settings.lookup key

variable {before : Fields}

theorem Written.write {settings : Fields} (known : container ∈ containerNames) (clients : List Fields)
    (others : ∀ key, key ≠ container → key ∉ (optionFields options).map Prod.fst →
      before.lookup key = settings.lookup key) :
    Written settings options container clients
    (setEntries container clients (update before (optionFields options))) where
  atClients := lookup_put_self _ _ _
  stated field member := by
    have named : field.1 ∈ (optionFields options).map Prod.fst := mem_map_of_mem member
    have differs : field.1 ≠ container := fun same => optionFields_container named (same ▸ known)
    rw [setEntries, lookup_put_other differs]
    exact lookup_update (optionFields_nodup options) member
  others key differs unnamed := by
    rw [setEntries, lookup_put_other differs, lookup_update_other unnamed]
    exact others key differs unnamed

variable {after : Fields}

theorem Written.same_iff {settings : Fields} {clients before : List Fields}
    (written : Written settings options container clients after) (known : container ∈ containerNames)
    (atFirst : (settings.lookup container).getD (.arr []) = .arr (before.map .obj)) :
    SameSettings settings after ↔
      clients = before ∧ ∀ field ∈ optionFields options, settings.lookup field.1 = some field.2 := by
  have obj_injective : Function.Injective Json.obj := fun _ _ => Json.obj.inj
  constructor
  · intro same
    constructor
    · have here := same container
      simp only [settingOf, if_pos known, written.atClients, atFirst, Option.getD_some, Option.some.injEq,
        Json.arr.injEq] at here
      exact obj_injective.list_map here
    · intro field member
      have free := optionFields_container (mem_map_of_mem member)
      have here := same field.1
      rw [settingOf, settingOf, if_neg free, if_neg free, written.stated field member] at here
      exact here.symm
  · rintro ⟨rfl, stated⟩ key
    by_cases here : key = container
    · subst here
      rw [settingOf, settingOf, if_pos known, if_pos known, written.atClients, atFirst]
      rfl
    · by_cases named : key ∈ (optionFields options).map Prod.fst
      · obtain ⟨field, member, rfl⟩ := List.mem_map.mp named
        have free := optionFields_container named
        rw [settingOf, settingOf, if_neg free, if_neg free, written.stated field member, stated field member]
      · rw [settingOf, settingOf, written.others key here named]

theorem checkShared_eq_ok {options : SnellOptions} {items : List Fields} :
    checkShared options items = .ok () ↔ ∀ item ∈ items, snellSource item = .ok options := by
  induction items with
  | nil => simp [checkShared]
  | cons item rest ih =>
    unfold checkShared
    cases found : snellSource item with
    | error error => simp [found]
    | ok own =>
      by_cases same : own = options
      · simp [same, ih, found]
      · simp [same, found]

/-- What `edit_client` has read of an inbound. -/
structure Reads (inbound : Fields) (container : String) (list : ClientList) : Prop where
  atContainer : list.container = container
  atSettings : (inbound.lookup "settings").getD (.obj []) = .obj list.settings
  atClients : (list.settings.lookup container).getD (.arr []) = .arr (list.clients.map .obj)
  placed : ¬ (container ≠ "clients" ∧ ((list.settings.lookup "clients").getD .null).truthy = true)
  plain : protocolOf inbound ≠ "snell" → list.options = none
  snell : protocolOf inbound = "snell" → ∃ options, list.options = some options ∧
    snellOptions list.settings list.clients = .ok options ∧ ∀ item ∈ list.clients, snellSource item = .ok options

variable {inbound : Fields} {list : ClientList}

theorem readClients_eq_ok : readClients inbound container = .ok list ↔ Reads inbound container list := by
  constructor
  · intro ok
    unfold readClients at ok
    split at ok
    · rename_i settings atSettings
      split at ok
      · cases ok
      · rename_i clients atClients
        split at ok
        · cases ok
        · rename_i placed
          split at ok
          · rename_i snell
            split at ok
            · cases ok
            · rename_i options atOptions
              split at ok
              · cases ok
              · rename_i shared
                cases ok
                exact ⟨rfl, atSettings, objects_eq_some.mp atClients, placed, fun plain => absurd snell plain,
                  fun _ => ⟨options, rfl, atOptions, checkShared_eq_ok.mp shared⟩⟩
          · rename_i plain
            cases ok
            exact ⟨rfl, atSettings, objects_eq_some.mp atClients, placed, fun _ => rfl, fun snell =>
              absurd snell plain⟩
    · cases ok
  · intro reads
    obtain ⟨container', settings, clients, options⟩ := list
    obtain ⟨rfl, atSettings, atClients, placed, plain, snell⟩ := reads
    unfold readClients
    rw [atSettings]
    dsimp only
    rw [objects_eq_some.mpr atClients]
    dsimp only
    rw [if_neg placed]
    by_cases protocol : protocolOf inbound = "snell"
    · obtain ⟨own, same, atOptions, shared⟩ := snell protocol
      dsimp only at same
      subst same
      rw [if_pos protocol, atOptions]
      dsimp only
      rw [checkShared_eq_ok.mpr shared]
    · rw [if_neg protocol, ← plain protocol]

theorem Reads.written {inbound after : Fields} {container : String} {list : ClientList}
    (reads : Reads inbound container list) {settings : Fields}
    {options : Option SnellOptions} {clients : List Fields}
    (atSettings : after.lookup "settings" = some (.obj settings))
    (protocol : after.lookup "protocol" = inbound.lookup "protocol")
    (written : Written list.settings options container clients settings)
    (plain : protocolOf inbound ≠ "snell" → options = none)
    (snell : protocolOf inbound = "snell" → ∃ own, options = some own ∧
      snellOptions settings clients = .ok own ∧ ∀ item ∈ clients, snellSource item = .ok own) :
    Reads after container
      { container := container, settings := settings, clients := clients, options := options } := by
  have same : protocolOf after = protocolOf inbound := by
    rw [protocolOf, textOf, protocol]
    rfl
  refine ⟨rfl, by rw [atSettings]; rfl, by rw [written.atClients]; rfl, ?_, ?_, ?_⟩
  · rintro ⟨other, truthy⟩
    refine reads.placed ⟨other, ?_⟩
    rw [← written.others "clients" other.symm ?_]
    · exact truthy
    · exact fun named => absurd (by decide) (optionFields_container named)
  · rw [same]
    exact plain
  · rw [same]
    exact snell

variable {client : Fields} {email : String}

theorem editClient_add {added : Fields} (named : emailOf client = some email)
    (ok : editClient inbound client false = .ok added) :
    ∃ container list replacement candidate clients,
      clientContainer (protocolOf inbound) = some container ∧ Reads inbound container list ∧
      placedClient list.options client = .ok (replacement, candidate) ∧
      added = writeClients inbound list candidate clients ∧
      clients = (removeEntry (has "email" (.str email)) list.clients).insertIdx
        (min ((list.clients.findIdx? (has "email" (.str email))).getD
          (removeEntry (has "email" (.str email)) list.clients).length)
          (removeEntry (has "email" (.str email)) list.clients).length) replacement ∧
      (removeEntry (has "email" (.str email)) list.clients ≠ [] → candidate = list.options) := by
  unfold editClient at ok
  split at ok
  · cases ok
  · rename_i container found
    rw [named] at ok
    dsimp only at ok
    split at ok
    · cases ok
    · rename_i list atList
      rw [if_neg (by simp)] at ok
      split at ok
      · cases ok
      · rename_i replacement candidate placed
        split at ok
        · cases ok
        · rename_i fits
          refine ⟨container, list, replacement, candidate, _, found, readClients_eq_ok.mp atList, placed,
            (Except.ok.inj ok).symm, rfl, fun some => ?_⟩
          exact by_contra fun differs => fits ⟨some, differs⟩

theorem editClient_remove (nonempty : email ≠ "") (found : clientContainer (protocolOf inbound) = some container)
    (reads : Reads inbound container list) :
    editClient inbound [("email", .str email)] true =
      .ok (writeClients inbound list list.options (removeEntry (has "email" (.str email)) list.clients)) := by
  have named : emailOf [("email", Json.str email)] = some email := by
    simp [emailOf, nonempty]
  unfold editClient
  rw [found, named]
  dsimp only
  rw [readClients_eq_ok.mpr reads]
  dsimp only
  rw [if_pos rfl]

variable {edited : Fields}

theorem editClient_removed (ok : editClient inbound client true = .ok edited) :
    ∃ container list email, clientContainer (protocolOf inbound) = some container ∧ Reads inbound container list ∧
      emailOf client = some email ∧
      edited = writeClients inbound list list.options (removeEntry (has "email" (.str email)) list.clients) := by
  unfold editClient at ok
  split at ok
  · cases ok
  · rename_i container found
    split at ok
    · cases ok
    · rename_i email named
      split at ok
      · cases ok
      · rename_i list atList
        exact ⟨container, list, email, found, readClients_eq_ok.mp atList, named, (Except.ok.inj ok).symm⟩

/-- The options that an edit of the clients writes: those that a new client
gives the inbound, or those that it has. -/
def writtenOptions (client : Option Fields) (options : Option SnellOptions) : Option SnellOptions :=
  match client with
  | none => options
  | some client =>
    match placedClient options client with
    | .ok (_, candidate) => candidate
    | .error _ => options

/-- No client of the inbound has the email, and its settings state the options
that are written with a client. -/
def ClientFree (inbound : Fields) (email : String) (client : Option Fields) : Prop :=
  ∀ container list, clientContainer (protocolOf inbound) = some container →
    readClients inbound container = .ok list →
    (∀ item ∈ list.clients, has "email" (.str email) item = false) ∧
      ∀ field ∈ optionFields (writtenOptions client list.options), list.settings.lookup field.1 = some field.2

theorem ClientFree.iff_of_reads {client : Option Fields}
    (found : clientContainer (protocolOf inbound) = some container) (reads : Reads inbound container list) :
    ClientFree inbound email client ↔
      (∀ item ∈ list.clients, has "email" (.str email) item = false) ∧
        ∀ field ∈ optionFields (writtenOptions client list.options),
          list.settings.lookup field.1 = some field.2 := by
  have atList := readClients_eq_ok.mpr reads
  constructor
  · exact fun free => free container list found atList
  · intro both other list' found' atList'
    cases found.symm.trans found'
    cases atList.symm.trans atList'
    exact both

/-- The settings of two inbounds. -/
def SettingsKept (before after : Fields) : Prop :=
  SameFields SameSettings ((before.lookup "settings").getD (.obj [])) ((after.lookup "settings").getD (.obj []))

theorem placedClient_ok {candidate : Option SnellOptions} {replacement : Fields}
    (distinct : (client.map Prod.fst).Nodup) (named : client.lookup "email" = some (.str email))
    (placed : placedClient options client = .ok (replacement, candidate)) :
    has "email" (.str email) replacement = true ∧ (options = none → candidate = none) ∧
      (options ≠ none → ∃ own, candidate = some own ∧ snellSource replacement = .ok own) := by
  unfold placedClient at placed
  split at placed
  · cases placed
    exact ⟨has_iff.mpr named, fun _ => rfl, fun some => absurd rfl some⟩
  · rename_i old
    dsimp only at placed
    split at placed
    · cases placed
    · rename_i own atOwn
      cases placed
      refine ⟨has_iff.mpr ?_, nofun, fun _ => ⟨own, rfl, atOwn⟩⟩
      exact lookup_update distinct ((Dict.lookup_eq_some distinct).mp named)

theorem editClient_other {remove : Bool} (ok : editClient inbound client remove = .ok edited)
    (differs : key ≠ "settings") :
    edited.lookup key = inbound.lookup key := by
  unfold editClient at ok
  split at ok
  · cases ok
  split at ok
  · cases ok
  split at ok
  · cases ok
  dsimp only at ok
  split at ok
  · cases ok
    exact lookup_put_other differs _ _
  split at ok
  · cases ok
  split at ok
  · cases ok
  · cases ok
    exact lookup_put_other differs _ _

theorem client_removed (nonempty : email ≠ "") (ok : editClient inbound [("email", .str email)] true = .ok edited) :
    (SettingsKept inbound edited ↔ ClientFree inbound email none) ∧
      ∀ key, key ≠ "settings" → edited.lookup key = inbound.lookup key := by
  obtain ⟨container, list, -, found, reads, -⟩ := editClient_removed ok
  rw [editClient_remove nonempty found reads] at ok
  cases ok
  refine ⟨?_, fun key differs => lookup_put_other differs _ _⟩
  have known := clientContainer_mem found
  have written : Written list.settings list.options container
      (removeEntry (has "email" (.str email)) list.clients) _ := .write known _ fun _ _ _ => rfl
  rw [SettingsKept, writeClients, lookup_put_self, reads.atSettings, reads.atContainer, Option.getD_some,
    ClientFree.iff_of_reads found reads]
  refine (written.same_iff known reads.atClients).trans ?_
  rw [removeEntry_eq_self]
  rfl

theorem client_undone {added later : Fields} (nonempty : email ≠ "") (distinct : (client.map Prod.fst).Nodup)
    (named : client.lookup "email" = some (.str email)) (ok : editClient inbound client false = .ok added)
    (settings : later.lookup "settings" = added.lookup "settings")
    (protocol : later.lookup "protocol" = added.lookup "protocol") :
    ∃ final, editClient later [("email", .str email)] true = .ok final ∧
      (SettingsKept inbound final ↔ ClientFree inbound email (some client)) ∧
      ∀ key, key ≠ "settings" → final.lookup key = later.lookup key := by
  have readable : emailOf client = some email := by
    rw [emailOf, named]
    exact if_neg nonempty
  obtain ⟨container, list, replacement, candidate, clients, found, reads, placed, rfl, inserted, fits⟩ :=
    editClient_add readable ok
  have bound := Nat.min_le_right ((list.clients.findIdx? (has "email" (.str email))).getD
    (removeEntry (has "email" (.str email)) list.clients).length)
      (removeEntry (has "email" (.str email)) list.clients).length
  have known := clientContainer_mem found
  have writes : writtenOptions (some client) list.options = candidate := by
    rw [writtenOptions, placed]
  obtain ⟨selected, without, with_⟩ := placedClient_ok distinct named placed
  have written : Written list.settings candidate container clients _ := .write known clients fun _ _ _ => rfl
  have after : Reads later container
      { container := container
        settings := setEntries container clients (update list.settings (optionFields candidate))
        clients := clients
        options := candidate } := by
    refine reads.written ?_ ?_ written ?_ ?_
    · rw [settings, writeClients, lookup_put_self, reads.atContainer]
      rfl
    · rw [protocol, writeClients, lookup_put_other (by decide)]
    · exact fun plain => without (reads.plain plain)
    · intro snell
      obtain ⟨old, atOld, _, shared⟩ := reads.snell snell
      obtain ⟨own, rfl, atOwn⟩ := with_ (by rw [atOld]; nofun)
      have all : ∀ item ∈ clients, snellSource item = .ok own := by
        intro item member
        rw [inserted, mem_insertIdx bound] at member
        rcases member with rfl | kept
        · exact atOwn
        · have equal := fits (ne_nil_of_mem kept)
          rw [atOld] at equal
          cases equal
          exact shared item (mem_of_mem_filter kept)
      have first : replacement ∈ clients := inserted ▸ (mem_insertIdx bound).mpr (.inl rfl)
      refine ⟨own, rfl, ?_, all⟩
      cases clients with
      | nil => cases first
      | cons head rest => exact all head mem_cons_self
  have same : protocolOf later = protocolOf inbound := by
    rw [protocolOf, textOf, protocol, writeClients, lookup_put_other (by decide)]
    rfl
  rw [← same] at found
  refine ⟨_, editClient_remove nonempty found after, ?_, fun key differs => lookup_put_other differs _ _⟩
  rw [same] at found
  have last : removeEntry (has "email" (.str email)) clients =
      removeEntry (has "email" (.str email)) list.clients := by
    rw [inserted, removeEntry_insertIdx selected, removeEntry_idem]
  rw [SettingsKept, writeClients, lookup_put_self, reads.atSettings, Option.getD_some, last,
    ClientFree.iff_of_reads found reads, writes, ← removeEntry_eq_self]
  exact Written.same_iff (.write known _ written.others) known reads.atClients

/-- The inbound has the client, as the only one of its email, and its settings
state the options that are written with it. -/
def ClientThere (inbound client : Fields) (email : String) : Prop :=
  ∀ container list replacement candidate, clientContainer (protocolOf inbound) = some container →
    readClients inbound container = .ok list → placedClient list.options client = .ok (replacement, candidate) →
    list.clients.filter (has "email" (.str email)) = [replacement] ∧
      ∀ field ∈ optionFields candidate, list.settings.lookup field.1 = some field.2

theorem client_added {added : Fields} (nonempty : email ≠ "") (distinct : (client.map Prod.fst).Nodup)
    (named : client.lookup "email" = some (.str email)) (ok : editClient inbound client false = .ok added) :
    SettingsKept inbound added ↔ ClientThere inbound client email := by
  have readable : emailOf client = some email := by
    rw [emailOf, named]
    exact if_neg nonempty
  obtain ⟨container, list, replacement, candidate, clients, found, reads, placed, rfl, inserted, -⟩ :=
    editClient_add readable ok
  have known := clientContainer_mem found
  have written : Written list.settings candidate container clients _ := .write known clients fun _ _ _ => rfl
  have selected := (placedClient_ok distinct named placed).1
  rw [SettingsKept, writeClients, lookup_put_self, reads.atSettings, reads.atContainer, Option.getD_some]
  refine (written.same_iff known reads.atClients).trans ?_
  rw [inserted, insertIdx_removeEntry selected]
  constructor
  · intro both container' list' replacement' candidate' found' atList' placed'
    cases found.symm.trans found'
    cases (readClients_eq_ok.mpr reads).symm.trans atList'
    cases placed.symm.trans placed'
    exact both
  · exact fun there => there container list replacement candidate found (readClients_eq_ok.mpr reads) placed

variable {items : List Json} {text : String}

theorem str_mem_distinctItems : .str text ∈ distinctItems items ↔ .str text ∈ items := by
  suffices go : ∀ kept : List Json, .str text ∈ items.foldl
      (fun kept item => if kept.any item.equal then kept else kept ++ [item]) kept ↔ .str text ∈ kept ∨
        .str text ∈ items by
    rw [distinctItems, go]
    simp
  induction items with
  | nil => simp
  | cons item rest ih =>
    intro kept
    rw [foldl_cons, ih]
    split
    · rename_i known
      constructor
      · exact fun member => member.imp_right (mem_cons_of_mem _)
      · rintro (old | member)
        · exact .inl old
        · rcases List.mem_cons.mp member with rfl | later
          · obtain ⟨other, at_, equal⟩ := List.any_eq_true.mp known
            exact .inl (str_equal.mp equal ▸ at_)
          · exact .inr later
    · simp [or_assoc]

/-- The sniffing settings of two inbounds. -/
def SniffingKept (before after : Fields) : Prop :=
  SameFields SameSniffing ((before.lookup "sniffing").getD (.obj [])) ((after.lookup "sniffing").getD (.obj []))

/-- The excludes of the inbound are a list. A text is read character by
character, so it has to be one of them or a domain that is added. -/
def ExcludesFree (inbound : Fields) (domains : List String) : Prop :=
  ∀ sniffing text, (inbound.lookup "sniffing").getD (.obj []) = .obj sniffing →
    sniffing.lookup "domainsExcluded" = some (.str text) →
    text ∈ text.toList.map String.singleton ∨ text ∈ domains

theorem extendExcludes_ok {excluded added : Json} {domains : List Json}
    (ok : extendExcludes excluded domains = .ok added) :
    ∃ items, unpacked excluded = some items ∧ added = .arr (distinctItems (items ++ domains)) := by
  unfold extendExcludes at ok
  split at ok
  · cases ok
  · rename_i items found
    split at ok
    · cases ok
      exact ⟨items, found, rfl⟩
    · cases ok

theorem mem_excludedDomains {sniffing : Fields} :
    text ∈ excludedDomains (put "domainsExcluded" (.arr items) sniffing) ↔ .str text ∈ items := by
  rw [excludedDomains, lookup_put_self]
  simp only [mem_filterMap]
  constructor
  · rintro ⟨item, member, found⟩
    cases item <;> cases found
    exact member
  · exact fun member => ⟨.str text, member, rfl⟩

theorem addExcludes_ok {domains : List String} (ok : addExcludes inbound (.arr (domains.map .str)) = .ok edited) :
    (SniffingKept inbound edited ↔ ExcludesFree inbound domains) ∧
      ∀ key, key ≠ "sniffing" → edited.lookup key = inbound.lookup key := by
  unfold addExcludes at ok
  dsimp only at ok
  split at ok
  · cases ok
  split at ok
  · rename_i sniffing atSniffing
    split at ok
    · cases ok
    · rename_i excluded extended
      cases ok
      refine ⟨?_, fun key differs => lookup_put_other differs _ _⟩
      obtain ⟨items, found, rfl⟩ := extendExcludes_ok extended
      rw [SniffingKept, lookup_put_self, atSniffing, Option.getD_some, ExcludesFree]
      have kept : ∀ text, text ∈ excludedDomains
            (put "domainsExcluded" (.arr (distinctItems (items ++ domains.map .str))) sniffing) ↔
          .str text ∈ items ∨ text ∈ domains := by
        intro text
        rw [mem_excludedDomains, str_mem_distinctItems, mem_append, mem_map]
        simp
      constructor
      · rintro same other text atOther atText
        cases atSniffing.symm.trans atOther
        rw [atText] at found
        cases found
        refine ((kept text).mp (same.excludes text ?_)).imp_left fun member => ?_
        · rw [excludedDomains, atText]
          exact mem_singleton_self text
        · obtain ⟨c, at_, equal⟩ := List.mem_map.mp member
          exact List.mem_map.mpr ⟨c, at_, Json.str.inj equal⟩
      · intro free
        refine ⟨fun key differs => lookup_put_other differs _ _, fun text member => (kept text).mpr ?_⟩
        unfold excludedDomains at member
        split at member
        · rename_i listed atListed
          rw [atListed] at found
          cases found
          obtain ⟨item, at_, equal⟩ := List.mem_filterMap.mp member
          cases item <;> cases equal
          exact .inl at_
        · rename_i whole atWhole
          rw [List.mem_singleton.mp member]
          rw [atWhole] at found
          cases found
          refine (free sniffing whole atSniffing atWhole).imp_left fun single => ?_
          obtain ⟨c, at_, equal⟩ := List.mem_map.mp single
          exact List.mem_map.mpr ⟨c, at_, congrArg Json.str equal⟩
        · cases member
  · cases ok

theorem SameFields.refl {same : Fields → Fields → Prop} (same_refl : ∀ fields, same fields fields) (value : Json) :
    SameFields same value value := by
  cases value with
  | obj fields => exact same_refl fields
  | _ => rfl

theorem SameSniffing.refl (sniffing : Fields) : SameSniffing sniffing sniffing :=
  ⟨fun _ _ => rfl, fun _ member => member⟩

theorem SameInbound.refl (inbound : Fields) : SameInbound inbound inbound :=
  ⟨fun _ _ _ => rfl, .refl (fun _ _ => rfl) _, .refl SameSniffing.refl _⟩

theorem sameInbound_iff (others : ∀ key, key ≠ "settings" → key ≠ "sniffing" →
    after.lookup key = before.lookup key) :
    SameInbound before after ↔ SettingsKept before after ∧ SniffingKept before after :=
  ⟨fun same => ⟨same.settings, same.sniffing⟩, fun both => ⟨others, both.1, both.2⟩⟩

/-- The branches of `edit_entries` that edit one inbound. -/
def onInbound (tag : String) (edit : Fields → Except String Fields) (config : Fields) : Except String Fields :=
  match entriesOf "inbounds" config with
  | .error error => .error error
  | .ok entries =>
    match findTag entries (.str tag) with
    | .error error => .error error
    | .ok current =>
      (edit current).map fun edited =>
        setEntries "inbounds" (replaceEntry (has "tag" (.str tag)) edited entries) config

variable {tag : String}

theorem findTag_eq_ok :
    findTag entries (.str tag) = .ok entry ↔ tag ≠ "" ∧ entries.filter (has "tag" (.str tag)) = [entry] := by
  unfold findTag
  by_cases empty : tag = ""
  · simp [empty, Json.truthy]
  · rw [if_neg (by simp [Json.truthy, empty])]
    split
    · rename_i found only
      simp [empty, only]
    · rename_i several
      simp only [reduceCtorEq, false_iff, not_and]
      exact fun _ only => several entry only

variable {config : Fields}

theorem onInbound_ok {edit : Fields → Except String Fields} (ok : onInbound tag edit config = .ok edited) :
    ∃ entries current final, entriesOf "inbounds" config = .ok entries ∧ findTag entries (.str tag) = .ok current ∧
      edit current = .ok final ∧
        edited = setEntries "inbounds" (replaceEntry (has "tag" (.str tag)) final entries) config := by
  unfold onInbound at ok
  split at ok
  · cases ok
  · rename_i entries atEntries
    split at ok
    · cases ok
    · rename_i current found
      cases result : edit current with
      | error error =>
        rw [result] at ok
        cases ok
      | ok final =>
        rw [result] at ok
        exact ⟨entries, current, final, atEntries, found, result, (Except.ok.inj ok).symm⟩

theorem replaceEntry_twice {first second : Fields} (selected : selects first = true) (entries : List Fields) :
    replaceEntry selects second (replaceEntry selects first entries) = replaceEntry selects second entries := by
  simp only [replaceEntry, map_map]
  refine map_congr_left fun entry _ => ?_
  by_cases here : selects entry = true
  · simp [here, selected]
  · simp [here]

variable {current : Fields}

theorem filter_replaceEntry (selected : selects entry = true) (only : entries.filter selects = [current]) :
    (replaceEntry selects entry entries).filter selects = [entry] := by
  have same : selects ∘ (fun other => if selects other then entry else other) = selects := by
    funext other
    by_cases here : selects other = true
    · simp [here, selected]
    · simp [here]
  have chosen : selects current = true := (List.mem_filter.mp (only ▸ mem_singleton_self current)).2
  rw [replaceEntry, filter_map, same, only, map_singleton, if_pos chosen]

theorem onInbound_again {edit : Fields → Except String Fields} {later first : Fields}
    (found : findTag entries (.str tag) = .ok current) (tagged : first.lookup "tag" = current.lookup "tag")
    (atLater : later.lookup "inbounds" =
      some (.arr ((replaceEntry (has "tag" (.str tag)) first entries).map .obj))) :
    onInbound tag edit later = (edit first).map fun final =>
      setEntries "inbounds" (replaceEntry (has "tag" (.str tag)) final entries) later := by
  obtain ⟨nonempty, only⟩ := findTag_eq_ok.mp found
  have chosen : has "tag" (.str tag) current = true := (List.mem_filter.mp (only ▸ mem_singleton_self current)).2
  have selected : has "tag" (.str tag) first = true := by
    rw [has, tagged]
    exact chosen
  have entries' : entriesOf "inbounds" later = .ok (replaceEntry (has "tag" (.str tag)) first entries) := by
    rw [entriesOf_eq_ok, atLater]
    rfl
  unfold onInbound
  rw [entries']
  dsimp only
  rw [findTag_eq_ok.mpr ⟨nonempty, filter_replaceEntry selected only⟩]
  simp only [replaceEntry_twice selected]

def InboundsKept (before after : Fields) : Prop :=
  SameItems (SameFields SameInbound) ((before.lookup "inbounds").getD (.arr []))
    ((after.lookup "inbounds").getD (.arr []))

theorem inboundsKept_iff {final : Fields} (atEntries : entriesOf "inbounds" config = .ok entries)
    (found : findTag entries (.str tag) = .ok current)
    (atAfter : after.lookup "inbounds" =
      some (.arr ((replaceEntry (has "tag" (.str tag)) final entries).map .obj))) :
    InboundsKept config after ↔ SameInbound current final := by
  obtain ⟨_, only⟩ := findTag_eq_ok.mp found
  have chosen := List.mem_filter.mp (only ▸ mem_singleton_self current)
  rw [InboundsKept, entriesOf_eq_ok.mp atEntries, atAfter, Option.getD_some, replaceEntry, map_map]
  show List.Forall₂ _ _ _ ↔ _
  rw [forall₂_map_left_iff, forall₂_map_right_iff, forall₂_same]
  constructor
  · intro all
    have here := all current chosen.1
    simp only [Function.comp_apply, chosen.2, if_true] at here
    exact here
  · intro same entry member
    by_cases here : has "tag" (.str tag) entry = true
    · have equal : entry ∈ entries.filter (has "tag" (.str tag)) := List.mem_filter.mpr ⟨member, here⟩
      rw [only, mem_singleton] at equal
      simp only [Function.comp_apply, equal, chosen.2, if_true]
      exact same
    · simp only [Function.comp_apply, here]
      exact SameInbound.refl entry

theorem removeEntry_append (selected : selects entry = true) (absent : entries.filter selects = []) :
    removeEntry selects (entries ++ [entry]) = entries := by
  rw [removeEntry, filter_append, filter_cons_of_neg (by simp [selected]), filter_nil, append_nil, filter_eq_self]
  intro other member
  have none := List.filter_eq_nil_iff.mp absent other member
  simpa using none

variable {payload : Fields}

theorem addEntry_ok {validateTls : Fields → Option String} {added : List Fields}
    (fresh : isTrue "allow_existing" payload = false) (ok : addEntry validateTls key payload entries = .ok added) :
    ∃ item, taggedItem payload (if key = "inbounds" then "inbound" else "outbound") = some item ∧
      entries.filter (has "tag" (tagOf item)) = [] ∧ added = entries ++ [item] := by
  unfold addEntry at ok
  split at ok
  · cases ok
  · rename_i item found
    split at ok
    · cases ok
    · dsimp only at ok
      rw [if_neg (by simp [fresh])] at ok
      split at ok
      · cases ok
      · rename_i absent
        exact ⟨item, found, not_not.mp absent, (Except.ok.inj ok).symm⟩

/-- No rule can be taken for the one that a plan adds: none has its mark, or
several have, or its users are no list with the email. -/
def RuleFree (config : Fields) (mark email : String) : Prop :=
  ∀ routing rules rule items, (config.lookup "routing").getD (.obj []) = .obj routing →
    entriesOf "rules" routing = .ok rules → rules.filter (has "marktag" (.str mark)) = [rule] →
    rule.lookup "user" = some (.arr items) → .str email ∉ items

def RoutingKept (before after : Fields) : Prop :=
  SameFields SameRouting ((before.lookup "routing").getD (.obj [])) ((after.lookup "routing").getD (.obj []))

/-- The branches of `edit_routing` that edit the list of rules. -/
def onRules (edit : List Fields → Except String (List Fields)) (config : Fields) : Except String Fields :=
  match (config.lookup "routing").getD (.obj []) with
  | .obj routing =>
    match entriesOf "rules" routing with
    | .error error => .error error
    | .ok rules => (edit rules).map fun rules => put "routing" (.obj (setEntries "rules" rules routing)) config
  | _ => .error "object has no attribute 'setdefault'"

variable {edit : List Fields → Except String (List Fields)}

theorem onRules_ok (ok : onRules edit config = .ok edited) :
    ∃ routing rules final, (config.lookup "routing").getD (.obj []) = .obj routing ∧
      entriesOf "rules" routing = .ok rules ∧ edit rules = .ok final ∧
      edited = put "routing" (.obj (setEntries "rules" final routing)) config := by
  unfold onRules at ok
  split at ok
  · rename_i routing atRouting
    split at ok
    · cases ok
    · rename_i rules atRules
      cases result : edit rules with
      | error error =>
        rw [result] at ok
        cases ok
      | ok final =>
        rw [result] at ok
        exact ⟨routing, rules, final, atRouting, atRules, result, (Except.ok.inj ok).symm⟩
  · cases ok

variable {rules : List Fields}

theorem onRules_of {routing : Fields} (atRouting : (config.lookup "routing").getD (.obj []) = .obj routing)
    (atRules : entriesOf "rules" routing = .ok rules) :
    onRules edit config =
      (edit rules).map fun rules => put "routing" (.obj (setEntries "rules" rules routing)) config := by
  unfold onRules
  rw [atRouting]
  dsimp only
  rw [atRules]

theorem editRouting_onRules (set : textOf "action" payload ≠ "set")
    (remove : textOf "action" payload ≠ "remove_rule")
    (edits : ∀ rules, edit rules =
      if textOf "action" payload = "add_rule" then addRule payload rules
      else editRuleUser (textOf "action" payload) payload rules)
    (known : textOf "action" payload ∈ ["add_rule", "add_user_to_rule", "remove_user_from_rule"]) :
    editRouting payload config = onRules edit config := by
  unfold editRouting onRules
  cases (config.lookup "routing").getD (.obj []) with
  | obj routing =>
    dsimp only
    rw [if_neg set, if_neg (fun both => remove both.1)]
    cases entriesOf "rules" routing with
    | error error => rfl
    | ok rules =>
      dsimp only
      rw [edits]
      by_cases add : textOf "action" payload = "add_rule"
      · rw [if_pos add, if_pos add]
      · have users : textOf "action" payload ∈ ["add_user_to_rule", "remove_user_from_rule"] :=
          (List.mem_cons.mp known).resolve_left add
        rw [if_neg add, if_neg add, if_neg remove, if_pos users]
  | _ => rfl

theorem SameRule.refl (rule : Fields) : SameRule rule rule :=
  ⟨fun _ _ => rfl, rfl⟩

theorem routingKept_iff {routing : Fields} {final : List Fields}
    (atRouting : (config.lookup "routing").getD (.obj []) = .obj routing)
    (atRules : entriesOf "rules" routing = .ok rules)
    (atAfter : after.lookup "routing" = some (.obj (setEntries "rules" final routing))) :
    RoutingKept config after ↔ List.Forall₂ SameRule rules final := by
  have listed : (SameItems (SameFields SameRule) ((routing.lookup "rules").getD (.arr []))
      (((setEntries "rules" final routing).lookup "rules").getD (.arr []))) ↔
        List.Forall₂ SameRule rules final := by
    rw [entriesOf_eq_ok.mp atRules, setEntries, lookup_put_self]
    show List.Forall₂ _ _ _ ↔ _
    rw [forall₂_map_left_iff, forall₂_map_right_iff]
    rfl
  rw [RoutingKept, atRouting, atAfter, ← listed]
  exact ⟨fun same => same.rules, fun same => ⟨fun key differs => lookup_put_other differs _ _, same⟩⟩

theorem filter_insertIdx {index : Nat} (selected : selects entry = true) (absent : entries.filter selects = [])
    (bound : index ≤ entries.length) :
    (entries.insertIdx index entry).filter selects = [entry] := by
  have shuffled := (perm_insertIdx entry entries bound).filter selects
  rw [filter_cons_of_pos selected, absent] at shuffled
  exact List.perm_singleton.mp shuffled

theorem findIdx?_getD_le {p : Fields → Bool} : (rules.findIdx? p).getD rules.length ≤ rules.length := by
  cases found : rules.findIdx? p with
  | none => exact le_rfl
  | some index => exact (List.findIdx?_eq_some_iff_findIdx_eq.mp found).1.le

variable {rule : Fields}

theorem rule_undone {added : List Fields} {mark : String} (atRule : payload.lookup "rule" = some (.obj rule))
    (fresh : isTrue "allow_existing" payload = false) (marked : rule.lookup "marktag" = some (.str mark))
    (nonempty : mark ≠ "") (users : rule.lookup "user" = some (.arr [.str email]))
    (ok : addRule payload rules = .ok added) :
    added.filter (has "marktag" (.str mark)) = [rule] ∧
      removeUser added (has "marktag" (.str mark)) rule email = .ok rules := by
  have selected : has "marktag" (.str mark) rule = true := has_iff.mpr marked
  unfold addRule at ok
  rw [atRule] at ok
  dsimp only at ok
  rw [marked, Option.getD_some, if_neg (by simp [fresh])] at ok
  split at ok
  · cases ok
  · rename_i absent
    have none : rules.filter (has "marktag" (.str mark)) = [] := by
      by_contra some
      exact absent ⟨by simp [Json.truthy, nonempty], some⟩
    cases ok
    have kept : removeEntry (has "marktag" (.str mark)) rules = rules := by
      rw [removeEntry_eq_self]
      intro other member
      simpa using List.filter_eq_nil_iff.mp none other member
    constructor
    · exact filter_insertIdx selected none findIdx?_getD_le
    · have held : holdsUser (.arr [.str email]) email = .ok true := by
        simp [holdsUser, str_equal]
      have left : List.eraseP (Json.str email).equal [.str email] = [] := eraseP_cons_of_pos (str_equal.mpr rfl)
      unfold removeUser
      rw [users, Option.getD_some]
      dsimp only
      rw [held]
      dsimp only
      rw [left, isEmpty_nil, if_pos rfl, removeEntry_insertIdx selected, kept]

theorem forall₂_replaceEntry (only : rules.filter selects = [rule]) :
    List.Forall₂ SameRule rules (replaceEntry selects edited rules) ↔ SameRule rule edited := by
  have chosen := List.mem_filter.mp (only ▸ mem_singleton_self rule)
  rw [replaceEntry, forall₂_map_right_iff, forall₂_same]
  constructor
  · intro all
    have here := all rule chosen.1
    rw [if_pos chosen.2] at here
    exact here
  · intro same other member
    by_cases here : selects other = true
    · have equal : other ∈ rules.filter selects := List.mem_filter.mpr ⟨member, here⟩
      rw [only, mem_singleton] at equal
      rw [if_pos here, equal]
      exact same
    · rw [if_neg here]
      exact SameRule.refl other

theorem user_removed {edited : List Fields} (only : rules.filter selects = [rule])
    (ok : removeUser rules selects rule email = .ok edited) :
    List.Forall₂ SameRule rules edited ↔ ∀ items, rule.lookup "user" = some (.arr items) → .str email ∉ items := by
  unfold removeUser at ok
  dsimp only at ok
  split at ok
  · cases ok
  · rename_i without
    cases ok
    rw [forall₂_replaceEntry only]
    refine ⟨fun _ items atUsers member => ?_, fun _ => ⟨fun key differs => ?_, ?_⟩⟩
    · rw [atUsers, Option.getD_some, holdsUser, Except.ok.injEq] at without
      have here : items.any (Json.str email).equal = true := List.any_eq_true.mpr ⟨_, member, str_equal.mpr rfl⟩
      exact absurd (without.symm.trans here) (by decide)
    · rw [lookup_putDefault, if_neg differs]
    · rw [lookup_putDefault, if_pos rfl]
      rfl
  · rename_i held
    split at ok
    · rename_i items atItems
      rw [atItems, holdsUser, Except.ok.injEq] at held
      obtain ⟨item, member, equal⟩ := List.any_eq_true.mp held
      have user : .str email ∈ items := str_equal.mp equal ▸ member
      have atUsers : rule.lookup "user" = some (.arr items) := by
        cases found : rule.lookup "user" with
        | none =>
          rw [found] at atItems
          cases atItems
          cases member
        | some value =>
          rw [found] at atItems
          exact congrArg some atItems
      have shorter := length_eraseP_of_mem member equal
      have nonempty := length_pos_of_mem member
      refine ⟨fun same => ?_, fun free => absurd user (free items atUsers)⟩
      split at ok
      · cases ok
        have length := same.length_eq
        have fewer := length_eq_length_filter_add (l := rules) selects
        rw [only, length_singleton] at fewer
        rw [removeEntry] at length
        omega
      · cases ok
        have users := (forall₂_replaceEntry only).mp same |>.users
        rw [lookup_put_self, Option.getD_some, atUsers, Option.getD_some, Json.arr.injEq] at users
        rw [users] at shorter
        omega
    · cases ok

theorem removeUser_ok (users : rule.lookup "user" = some (.arr items)) (member : .str email ∈ items) :
    ∃ edited, removeUser rules selects rule email = .ok edited := by
  have held : holdsUser (.arr items) email = .ok true := by
    rw [holdsUser, List.any_eq_true.mpr ⟨_, member, str_equal.mpr rfl⟩]
  unfold removeUser
  rw [users, Option.getD_some]
  dsimp only
  rw [held]
  dsimp only
  split
  · exact ⟨_, rfl⟩
  · exact ⟨_, rfl⟩

theorem SniffingKept.refl (inbound : Fields) : SniffingKept inbound inbound :=
  SameFields.refl SameSniffing.refl _

theorem SniffingKept.congr {before' after' : Fields} (first : before'.lookup "sniffing" = before.lookup "sniffing")
    (second : after'.lookup "sniffing" = after.lookup "sniffing") :
    SniffingKept before' after' ↔ SniffingKept before after := by
  rw [SniffingKept, SniffingKept, first, second]

def OutboundsKept (before after : Fields) : Prop :=
  (after.lookup "outbounds").getD (.arr []) = (before.lookup "outbounds").getD (.arr [])

theorem RuleFree.congr {other : Fields} {mark : String} (same : other.lookup "routing" = config.lookup "routing") :
    RuleFree other mark email ↔ RuleFree config mark email := by
  rw [RuleFree, RuleFree, same]

theorem RoutingKept.of_eq (same : after.lookup "routing" = before.lookup "routing") :
    RoutingKept before after := by
  rw [RoutingKept, same]
  refine SameFields.refl (fun routing => ⟨fun _ _ => rfl, ?_⟩) _
  cases (routing.lookup "rules").getD (.arr []) with
  | arr items => exact List.forall₂_same.mpr fun item _ => SameFields.refl SameRule.refl item
  | _ => rfl

theorem OutboundsKept.of_eq (same : after.lookup "outbounds" = before.lookup "outbounds") :
    OutboundsKept before after := by
  rw [OutboundsKept, same]

theorem restored_iff
    (others : ∀ key, key ∉ ["inbounds", "outbounds", "routing"] → after.lookup key = before.lookup key) :
    Restored before after ↔ InboundsKept before after ∧ OutboundsKept before after ∧ RoutingKept before after :=
  ⟨fun same => ⟨same.inbounds, same.outbounds, same.routing⟩, fun all => ⟨others, all.1, all.2.1, all.2.2⟩⟩

theorem Restored.refl (before : Fields) : Restored before before := by
  refine (restored_iff fun _ _ => rfl).mpr ⟨?_, .of_eq rfl, .of_eq rfl⟩
  unfold InboundsKept
  cases (before.lookup "inbounds").getD (.arr []) with
  | arr items => exact List.forall₂_same.mpr fun item _ => SameFields.refl SameInbound.refl item
  | _ => rfl

end OpenNode.Agent
