import OpenNode.Lib.Edits
import OpenNode.Lib.Literals
import OpenNode.SystemConfig

namespace OpenNode.Agent

open Assoc List Literals

/-- What a reading of a configuration raises: a failure with its text, or the error
of Python for a list or an object that is looked up in a set. -/
inductive Raised where
  | failure (text : String)
  | typeError

/-- Whether a value is this text. -/
def reads (text : String) : Option Json → Bool
  | some (.str other) => other = text
  | _ => false

/-- Whether a value looked up in a set of texts is one of them. -/
def oneOf (texts : List String) : Json → Except Raised Bool
  | .arr _ | .obj _ => .error .typeError
  | .str text => .ok (texts.contains text)
  | _ => .ok false

section

variable (numerals : Numerals)

/-- A host and a port that are apart. -/
def endpointOf (host port : List Char) : Option (String × Int) :=
  match address? host, int? numerals port with
  | some address, some number =>
    if address.isLoopback ∧ 1 ≤ number ∧ number ≤ 65535 then some (String.ofList address.text, number) else none
  | _, _ => none

def loopbackEndpoint : Json → Option (String × Int)
  | .str text =>
    match text.toList with
    | '[' :: rest =>
      match rest.dropWhile (· ≠ ']') with
      | _ :: ':' :: port => if ']' ∈ port then none else endpointOf numerals (rest.takeWhile (· ≠ ']')) port
      | _ => none
    | text =>
      if text.count ':' = 1 then endpointOf numerals (text.takeWhile (· ≠ ':')) (text.dropWhile (· ≠ ':')).tail
      else none
  | _ => none

def formatEndpoint (host : String) (port : Int) : String :=
  if ':' ∈ host.toList then "[" ++ host ++ "]:" ++ toString port else host ++ ":" ++ toString port

def routedApiRule (tag : String) : Json → Except Raised Bool
  | .obj rule =>
    if rule.all fun field => ["type", "inboundTag", "outboundTag"].contains field.1 then
      match (rule.lookup "type").getD .null with
      | .null => .ok (reads tag (rule.lookup "outboundTag") &&
          (Json.arr [.str tag]).equal ((rule.lookup "inboundTag").getD .null))
      | type => do
        let field ← oneOf ["field"] type
        .ok (field && reads tag (rule.lookup "outboundTag") &&
          (Json.arr [.str tag]).equal ((rule.lookup "inboundTag").getD .null))
    else .ok false
  | _ => .ok false

def tagged (tag : String) : Json → Bool
  | .obj fields => reads tag (fields.lookup "tag")
  | _ => false

/-- A rule that names the API's tag. -/
def apiRelated (tag : String) : Json → Bool
  | .obj rule =>
    reads tag (rule.lookup "outboundTag") ||
      match rule.lookup "inboundTag" with
      | some (.arr tags) => tags.any (Json.equal (.str tag))
      | _ => false
  | _ => false

/-- The parts of a configuration that a binding depends on. -/
structure ApiArrays where
  inbounds : List Json
  outbounds : List Json
  rules : List Json

def apiRules (config : Fields) : Option (List Json) :=
  match (config.lookup "routing").getD (.obj []) with
  | .obj routing => ((routing.lookup "rules").getD (.arr [])).items?
  | _ => some []

def apiArrays (config : Fields) : Option ApiArrays := do
  let inbounds ← ((config.lookup "inbounds").getD (.arr [])).items?
  let outbounds ← ((config.lookup "outbounds").getD (.arr [])).items?
  let rules ← apiRules config
  some { inbounds := inbounds, outbounds := outbounds, rules := rules }

def apiTag (api : Fields) : Option String :=
  match (api.lookup "tag").getD (.str "api") with
  | .str tag => if tag = "" then none else some tag
  | _ => none

/-- Whether the services of the API are a list of texts. -/
def namedServices (api : Fields) : Bool :=
  match (api.lookup "services").getD (.arr []) with
  | .arr items => items.all fun item => item.str?.isSome
  | _ => false

def directBinding (tag : String) (listen : Json) (arrays : ApiArrays) : Except Raised ApiBinding :=
  match loopbackEndpoint numerals listen with
  | none => .error (.failure "Existing Xray API must use a literal loopback listener")
  | some (host, port) =>
    if arrays.inbounds.any (tagged tag) || arrays.rules.any (apiRelated tag) then
      .error (.failure "Mixed direct and routed Xray API configuration is read-only in this form")
    else .ok { mode := .direct, host := host, port := port, inboundIndex := none }

/-- `ip_address` of the listener of an inbound. -/
def listenAddress : Json → Option Address
  | .str text => address? text.toList
  | .int value => Address.ofInt? value
  | .bool value => Address.ofInt? (if value then 1 else 0)
  | _ => none

/-- The endpoint of the inbound of a routed API. -/
def routedEndpoint (inbound : Fields) : Except Raised (String × Int) := do
  let known ← oneOf ["tunnel", "dokodemo-door"] ((inbound.lookup "protocol").getD .null)
  if !known then .error (.failure "Traditional routed Xray API must use the tunnel or dokodemo-door protocol")
  else
    match listenAddress ((inbound.lookup "listen").getD .null) with
    | none => .error (.failure "Traditional routed Xray API must use a literal loopback listener")
    | some address =>
      match inbound.lookup "port" with
      | some (.int port) =>
        if address.isLoopback ∧ 1 ≤ port ∧ port ≤ 65535 then .ok (String.ofList address.text, port)
        else .error (.failure "Traditional routed Xray API must use a literal loopback listener and port")
      | _ => .error (.failure "Traditional routed Xray API must use a literal loopback listener and port")

/-- The inbounds of a tag with their places. -/
def taggedAt (tag : String) (inbounds : List Json) : List (Json × Nat) :=
  inbounds.zipIdx.filter fun item => tagged tag item.1

def routedBinding (tag : String) (arrays : ApiArrays) : Except Raised ApiBinding := do
  let routed ← arrays.rules.mapM (routedApiRule tag)
  match taggedAt tag arrays.inbounds with
  | [(.obj inbound, index)] =>
    if routed.count true = 1 ∧ arrays.rules.countP (apiRelated tag) = 1 then do
      let (host, port) ← routedEndpoint inbound
      .ok { mode := .routed, host := host, port := port, inboundIndex := some index }
    else .error (.failure "Traditional routed Xray API requires one dedicated inbound and routing rule")
  | _ => .error (.failure "Traditional routed Xray API requires one dedicated inbound and routing rule")

def absentBinding : ApiBinding where
  mode := .absent
  host := "127.0.0.1"
  port := 46736
  inboundIndex := none

def bindApi (api : Fields) (config : Fields) : Except Raised ApiBinding :=
  if !namedServices api then .error (.failure "Xray API services must be a list of strings")
  else
    match apiTag api with
    | none => .error (.failure "Xray API tag must be a non-empty string")
    | some tag =>
      match apiArrays config with
      | none => .error (.failure "Xray API inbounds, outbounds and routing rules must be arrays")
      | some arrays =>
        if arrays.outbounds.any (tagged tag) then .error
          (.failure "Xray API tag conflicts with an explicit outbound")
        else
          match api.lookup "listen" with
          | some listen => directBinding numerals tag listen arrays
          | none => routedBinding tag arrays

def xrayApiBinding (config : Fields) : Except Raised ApiBinding :=
  match (config.lookup "api").getD .null with
  | .null => .ok absentBinding
  | .obj api => bindApi numerals api config
  | _ => .error (.failure "Xray API must be an object")

/-- A host of an endpoint: the text of a loopback address. -/
structure LoopbackHost (host : String) : Prop where
  known : ∃ address, address? host.toList = some address ∧ address.isLoopback = true ∧ address.text = host.toList
  form : (∀ c ∈ host.toList, c = '.' ∨ c.isDigit = true) ∨ ':' ∈ host.toList ∧ ']' ∉ host.toList

variable {numerals}

theorem endpointOf_host {host port : List Char} {name : String} {number : Int} (bracketed : ':' ∈ host → ']' ∉ host)
    (found : endpointOf numerals host port = some (name, number)) : LoopbackHost name ∧ 1 ≤ number ∧
      number ≤ 65535 := by
  unfold endpointOf at found
  split at found
  · rename_i address number' parsed counted
    split at found
    · rename_i sound
      cases found
      obtain ⟨again, form⟩ := address?_text parsed sound.1
      refine ⟨⟨⟨address, ?_, sound.1, ?_⟩, ?_⟩, sound.2⟩
      · rw [String.toList_ofList, again]
      · rw [String.toList_ofList]
      · rw [String.toList_ofList]
        rcases form with plain | ⟨colon, written, closing⟩
        · exact .inl plain
        · exact .inr ⟨written, fun here => bracketed colon (closing here)⟩
    · cases found
  · cases found

theorem span_at {c : Char} {front : List Char} (absent : c ∉ front) (back : List Char) :
    (front ++ c :: back).takeWhile (· ≠ c) = front ∧ (front ++ c :: back).dropWhile (· ≠ c) = c :: back := by
  have differs (other : Char) (here : other ∈ front) : decide (other ≠ c) = true :=
    decide_eq_true fun same => absent (same ▸ here)
  constructor
  · rw [takeWhile_append_of_pos differs, takeWhile_cons_of_neg (by simp), append_nil]
  · rw [dropWhile_append_of_pos differs, dropWhile_cons_of_neg (by simp)]

theorem notMem_takeWhile {c : Char} (text : List Char) : c ∉ text.takeWhile (· ≠ c) := fun here => by
  simpa using mem_takeWhile_imp here

variable {host : String} {port : Int}

theorem loopbackEndpoint_host {value : Json} (found : loopbackEndpoint numerals value = some (host, port)) :
    LoopbackHost host ∧ 1 ≤ port ∧ port ≤ 65535 := by
  unfold loopbackEndpoint at found
  split at found
  · split at found
    · split at found
      · split at found
        · cases found
        · exact endpointOf_host (fun _ => notMem_takeWhile _) found
      · cases found
    · split at found
      · exact endpointOf_host (fun colon => absurd colon (notMem_takeWhile _)) found
      · cases found
  · cases found

theorem toString_port (positive : 1 ≤ port) : (toString port).toList = Nat.toDigits 10 port.toNat := by
  obtain ⟨n, rfl⟩ := Int.eq_ofNat_of_zero_le (Int.le_trans (by decide) positive)
  exact Nat.toList_repr

theorem LoopbackHost.endpointOf (sound : LoopbackHost host) (positive : 1 ≤ port) (small : port ≤ 65535) :
    Agent.endpointOf numerals host.toList (toString port).toList = some (host, port) := by
  obtain ⟨address, parsed, loopback, text⟩ := sound.known
  have short : (Nat.toDigits 10 port.toNat).length ≤ 4300 :=
    Nat.le_trans ((Nat.length_toDigits_le_iff (by decide) (by decide : 0 < 5)).mpr (by omega)) (by decide)
  have number : int? numerals (Nat.toDigits 10 port.toNat) = some port := by
    rw [int?_toDigits numerals short, Int.toNat_of_nonneg (by omega)]
  rw [toString_port positive]
  simp only [Agent.endpointOf, parsed, number, text, String.ofList_toList]
  exact if_pos ⟨loopback, positive, small⟩

theorem LoopbackHost.endpoint (sound : LoopbackHost host) (positive : 1 ≤ port) (small : port ≤ 65535) :
    loopbackEndpoint numerals (.str (formatEndpoint host port)) = some (host, port) := by
  have read : Agent.endpointOf numerals host.toList (toString port).toList = some (host, port) :=
    sound.endpointOf positive small
  have digit (c : Char) (here : c ∈ (toString port).toList) : c.isDigit = true := by
    rw [toString_port positive] at here
    exact Nat.isDigit_of_mem_toDigits (by decide) (by decide) here
  unfold formatEndpoint
  split
  · rename_i colon
    have absent : ']' ∉ host.toList := by
      rcases sound.form with plain | ⟨-, absent⟩
      · rcases plain _ colon with dot | digit
        · exact absurd dot (by decide)
        · exact absurd digit (by decide)
      · exact absent
    have text : ("[" ++ host ++ "]:" ++ toString port).toList =
        '[' :: (host.toList ++ ']' :: ':' :: (toString port).toList) := by
      simp
    obtain ⟨front, back⟩ := span_at absent (':' :: (toString port).toList)
    have closed : ']' ∉ (toString port).toList := fun here => absurd (digit _ here) (by decide)
    simp only [loopbackEndpoint, text, front, back, if_neg closed, read]
  · rename_i plain
    have text : (host ++ ":" ++ toString port).toList = host.toList ++ ':' :: (toString port).toList := by
      simp
    obtain ⟨front, back⟩ := span_at plain (toString port).toList
    have single : (host.toList ++ ':' :: (toString port).toList).count ':' = 1 := by
      have absent : ':' ∉ (toString port).toList := fun here => absurd (digit _ here) (by decide)
      rw [count_append, count_cons_self, List.count_eq_zero.mpr plain, List.count_eq_zero.mpr absent]
    -- The text does not begin with a bracket.
    have bare (rest : List Char) : host.toList ++ ':' :: (toString port).toList ≠ '[' :: rest := fun same => by
      rcases sound.form with digits | ⟨colon, -⟩
      · cases shape : host.toList with
        | nil =>
          rw [shape, nil_append] at same
          exact absurd (List.cons.inj same).1 (by decide)
        | cons c others =>
          rw [shape, cons_append] at same
          have opening := (List.cons.inj same).1
          rcases digits c (shape ▸ mem_cons_self) with dot | digit
          · exact absurd (opening.symm.trans dot) (by decide)
          · exact absurd (opening ▸ digit) (by decide)
      · exact plain colon
    simp only [loopbackEndpoint, text]
    rw [if_pos single, front, back, tail_cons, read]

/-- What a binding of an API rests on, apart from its endpoint. -/
structure Bound (api config : Fields) (tag : String) (arrays : ApiArrays) : Prop where
  services : namedServices api = true
  named : apiTag api = some tag
  listed : apiArrays config = some arrays
  outbounds : arrays.outbounds.any (tagged tag) = false

/-- The endpoint of an API with a tag. -/
def endpointBinding (numerals : Numerals) (tag : String) (api : Fields) (arrays : ApiArrays) :
    Except Raised ApiBinding :=
  match api.lookup "listen" with
  | some listen => directBinding numerals tag listen arrays
  | none => routedBinding tag arrays

variable {api config : Fields} {tag : String} {arrays : ApiArrays}

theorem Bound.bindApi (bound : Bound api config tag arrays) :
    Agent.bindApi numerals api config = endpointBinding numerals tag api arrays := by
  simp only [Agent.bindApi, bound.services, bound.named, bound.listed, bound.outbounds, Bool.not_true,
    Bool.false_eq_true,
    if_false]
  rfl

variable {binding : ApiBinding}

theorem bindApi_bound (found : bindApi numerals api config = .ok binding) :
    ∃ tag arrays, Bound api config tag arrays ∧ endpointBinding numerals tag api arrays = .ok binding := by
  unfold bindApi at found
  split at found
  · cases found
  · rename_i services
    split at found
    · cases found
    · rename_i tag named
      split at found
      · cases found
      · rename_i arrays listed
        split at found
        · cases found
        · rename_i apart
          rw [Bool.not_eq_true, Bool.not_eq_false'] at services
          exact ⟨tag, arrays, ⟨services, named, listed, Bool.eq_false_iff.mpr apart⟩, found⟩

/-- Nothing of a configuration uses the tag of an API that listens for itself. -/
def unrelated (tag : String) (arrays : ApiArrays) : Bool :=
  !(arrays.inbounds.any (tagged tag) || arrays.rules.any (apiRelated tag))

theorem directBinding_ok {listen : Json} : directBinding numerals tag listen arrays = .ok binding ↔
      ∃ host port, loopbackEndpoint numerals listen = some (host, port) ∧ unrelated tag arrays = true ∧
        binding = { mode := .direct, host := host, port := port, inboundIndex := none } := by
  unfold directBinding unrelated
  constructor
  · intro found
    split at found
    · cases found
    · rename_i host port endpoint
      split at found
      · cases found
      · rename_i apart
        exact ⟨host, port, endpoint, by simpa using apart, (Except.ok.inj found).symm⟩
  · rintro ⟨host, port, endpoint, apart, rfl⟩
    rw [endpoint]
    exact if_neg (by simpa using apart)

theorem tagged_withPort (tag : String) (port : Int) (item : Json) :
    tagged tag (withPort port item) = tagged tag item := by
  cases item with
  | obj inbound => exact congrArg (reads tag) (lookup_put_other (by decide) _ _)
  | _ => rfl

theorem zipIdx_modify {α : Type*} (f : α → α) (index : Nat) (items : List α) :
    (items.modify index f).zipIdx = items.zipIdx.map fun item => (if item.2 = index then f item.1 else item.1,
      item.2) := by
  apply ext_getElem?
  intro i
  rw [List.getElem?_zipIdx, List.getElem?_modify, List.getElem?_map, List.getElem?_zipIdx]
  cases items[i]? with
  | none => rfl
  | some item =>
    by_cases here : index = i
    · simp [here]
    · simp [here, Ne.symm here]

theorem taggedAt_modify (tag : String) (port : Int) (index : Nat) (inbounds : List Json) :
    taggedAt tag (inbounds.modify index (withPort port)) =
      (taggedAt tag inbounds).map fun item => (if item.2 = index then withPort port item.1 else item.1,
        item.2) := by
  rw [taggedAt, taggedAt, zipIdx_modify, filter_map]
  congr 1
  apply filter_congr
  intro item _
  show tagged tag (if item.2 = index then withPort port item.1 else item.1) = tagged tag item.1
  split
  · exact tagged_withPort tag port item.1
  · rfl

variable {inbound : Fields}

theorem routedEndpoint_port {old : Int} (found : routedEndpoint inbound = .ok (host, old)) :
    inbound.lookup "port" = some (.int old) ∧ 1 ≤ old ∧ old ≤ 65535 ∧
    ∀ port, 1 ≤ port → port ≤ 65535 → routedEndpoint (put "port" (.int port) inbound) = .ok (host, port) := by
  unfold routedEndpoint at found
  obtain ⟨known, protocol, found⟩ := Edits.bind_eq_ok found
  split at found
  · cases found
  · rename_i supported
    split at found
    · cases found
    · rename_i address listens
      split at found
      · rename_i number here
        split at found
        · rename_i sound
          cases found
          refine ⟨here, sound.2.1, sound.2.2, fun port positive small => ?_⟩
          have kept (key : String) (differs : key ≠ "port") : (put "port" (.int port) inbound).lookup key =
              inbound.lookup key :=
            lookup_put_other differs _ _
          rw [routedEndpoint, kept "protocol" (by decide), kept "listen" (by decide), Edits.bind_ok protocol,
            if_neg supported]
          simp only [listens, lookup_put_self]
          exact if_pos ⟨sound.1, positive, small⟩
        · cases found
      · cases found

theorem routedBinding_cases (found : routedBinding tag arrays = .ok binding) :
    ∃ routed inbound index host port, arrays.rules.mapM (routedApiRule tag) = .ok routed ∧
      taggedAt tag arrays.inbounds = [(.obj inbound, index)] ∧ routed.count true = 1 ∧
      arrays.rules.countP (apiRelated tag) = 1 ∧ routedEndpoint inbound = .ok (host, port) ∧
      binding = { mode := .routed, host := host, port := port, inboundIndex := some index } := by
  unfold routedBinding at found
  obtain ⟨routed, ruled, found⟩ := Edits.bind_eq_ok found
  split at found
  · rename_i inbound index alone
    split at found
    · rename_i single
      obtain ⟨⟨host, port⟩, endpoint, found⟩ := Edits.bind_eq_ok found
      exact ⟨routed, inbound, index, host, port, ruled, alone, single.1, single.2, endpoint,
        (Except.ok.inj found).symm⟩
    · cases found
  · cases found

theorem routedBinding_ok {routed : List Bool} {index : Nat}
    (ruled : arrays.rules.mapM (routedApiRule tag) = .ok routed)
    (alone : taggedAt tag arrays.inbounds = [(.obj inbound, index)]) (single : routed.count true = 1)
    (related : arrays.rules.countP (apiRelated tag) = 1) (endpoint : routedEndpoint inbound = .ok (host, port)) :
    routedBinding tag arrays = .ok { mode := .routed, host := host, port := port, inboundIndex := some index } := by
  rw [routedBinding, Edits.bind_ok ruled, alone]
  simp only [single, related, and_self, if_true]
  rw [Edits.bind_ok endpoint]

theorem routedBinding_port (found : routedBinding tag arrays = .ok binding) :
    binding.mode = .routed ∧ 1 ≤ binding.port ∧ binding.port ≤ 65535 ∧
    ∃ index, binding.inboundIndex = some index ∧ ∀ port, 1 ≤ port → port ≤ 65535 →
      routedBinding tag { arrays with inbounds := arrays.inbounds.modify index (withPort port) } =
        .ok { binding with port := port } := by
  obtain ⟨routed, inbound, index, host, old, ruled, alone, single, related, endpoint, rfl⟩ :=
    routedBinding_cases found
  obtain ⟨-, lower, upper, renewed⟩ := routedEndpoint_port endpoint
  refine ⟨rfl, lower, upper, index, rfl, fun port positive small => ?_⟩
  refine routedBinding_ok ruled ?_ single related (renewed port positive small)
  rw [taggedAt_modify, alone]
  simp [withPort]

theorem endpointBinding_cases (found : endpointBinding numerals tag api arrays = .ok binding) :
    (binding.mode = .direct ∧ LoopbackHost binding.host ∧ 1 ≤ binding.port ∧ binding.port ≤ 65535 ∧
      unrelated tag arrays = true ∧ binding.inboundIndex = none) ∨
    (binding.mode = .routed ∧ api.lookup "listen" = none ∧ routedBinding tag arrays = .ok binding) := by
  unfold endpointBinding at found
  split at found
  · obtain ⟨host, port, endpoint, apart, rfl⟩ := directBinding_ok.mp found
    obtain ⟨sound, lower, upper⟩ := loopbackEndpoint_host endpoint
    exact .inl ⟨rfl, sound, lower, upper, apart, rfl⟩
  · rename_i absent
    exact .inr ⟨(routedBinding_port found).1, absent, found⟩

theorem endpointBinding_direct (apart : unrelated tag arrays = true) (sound : LoopbackHost host) (lower : 1 ≤ port)
    (upper : port ≤ 65535) (listens : api.lookup "listen" = some (.str (formatEndpoint host port))) :
    endpointBinding numerals tag api arrays =
      .ok { mode := .direct, host := host, port := port, inboundIndex := none } := by
  rw [endpointBinding, listens]
  exact directBinding_ok.mpr ⟨host, port, sound.endpoint lower upper, apart, rfl⟩

theorem apiArrays_congr {before after : Fields} (inbounds : after.lookup "inbounds" = before.lookup "inbounds")
    (outbounds : after.lookup "outbounds" = before.lookup "outbounds")
    (routing : after.lookup "routing" = before.lookup "routing") :
    apiArrays after = apiArrays before := by
  rw [apiArrays, apiArrays, apiRules, apiRules, inbounds, outbounds, routing]

theorem apiArrays_inbounds {before after : Fields} {items : List Json} (listed : apiArrays before = some arrays)
    (inbounds : after.lookup "inbounds" = some (.arr items))
    (outbounds : after.lookup "outbounds" = before.lookup "outbounds")
    (routing : after.lookup "routing" = before.lookup "routing") :
    apiArrays after = some { arrays with inbounds := items } := by
  unfold apiArrays apiRules at listed ⊢
  obtain ⟨old, -, listed⟩ := Option.bind_eq_some_iff.mp listed
  obtain ⟨outs, others, listed⟩ := Option.bind_eq_some_iff.mp listed
  obtain ⟨rules, ruled, listed⟩ := Option.bind_eq_some_iff.mp listed
  cases listed
  rw [inbounds, outbounds, routing]
  refine Option.bind_eq_some_iff.mpr ⟨items, rfl, Option.bind_eq_some_iff.mpr ⟨outs, others, ?_⟩⟩
  exact Option.bind_eq_some_iff.mpr ⟨rules, ruled, rfl⟩

theorem routedBinding_listed (listed : apiArrays config = some arrays)
    (found : routedBinding tag arrays = .ok binding) :
    config.lookup "inbounds" = some (.arr arrays.inbounds) := by
  obtain ⟨-, inbound, index, -, -, -, alone, -⟩ := routedBinding_cases found
  obtain ⟨items, here, listed⟩ := Option.bind_eq_some_iff.mp listed
  obtain ⟨outs, -, listed⟩ := Option.bind_eq_some_iff.mp listed
  obtain ⟨rules, -, listed⟩ := Option.bind_eq_some_iff.mp listed
  cases listed
  cases lookup : config.lookup "inbounds" with
  | none =>
    rw [lookup] at here
    cases here
    cases alone
  | some value =>
    rw [lookup] at here
    cases value with
    | arr other => rw [Option.some.inj here]
    | _ => cases here

end

end OpenNode.Agent
