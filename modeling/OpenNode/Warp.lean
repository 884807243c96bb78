import OpenNode.Lib.Raising
import OpenNode.WarpOutbounds

namespace OpenNode.Warp

open Assoc Agent Raising List

structure Host where
  config : Fields
  file : Option WarpState
  /-- The undo record: what a recovery puts back. -/
  record : Option (Fields × Option WarpState)
  /-- The devices that the provider has registered. -/
  registered : List String
  /-- The devices whose deletion the provider has confirmed. -/
  deleted : List String

namespace Host

/-- `FileTransaction.recover`. -/
def recover (host : Host) : Host :=
  match host.record with
  | none => host
  | some (config, file) => { host with config := config, file := file, record := none }

/-- `Warp.save`. -/
def save (state : WarpState) (host : Host) : Host :=
  { host with file := some state }

/-- `FileTransaction.begin` of the configuration and the own file. -/
def begin (config : Fields) (state : WarpState) (host : Host) : Host :=
  { host with config := config, file := some state, record := some (host.config, host.file) }

def commit (host : Host) : Host :=
  { host with record := none }

def register (device : String) (host : Host) : Host :=
  { host with registered := host.registered ++ [device] }

def confirmDeletion (device : String) (host : Host) : Host :=
  { host with deleted := host.deleted ++ [device] }

/-- `remove_file`. -/
def forget (host : Host) : Host :=
  { host with file := none }

end Host

/-- What a call meets: the answers of the provider (`none` when the request
fails), the keys that it draws, and Xray's. -/
structure Circumstances where
  enabled : Bool
  running : Bool
  accepts : Fields → Bool
  registration : Option Json
  refreshed : Option Json
  privateKey : String
  publicKey : String
  now : String

variable (codec : Codec) (circumstances : Circumstances)

/-- The alphabet of a device id. -/
def deviceCharacter (c : Char) : Bool :=
  c.isAlphanum || c = '_' || c = '-'

/-- The state that `install` makes of a registration, if its values are valid. -/
def newState (response : Json) : Option WarpState := do
  let device ← (← response.find? "id").str?
  let token ← (← response.find? "token").str?
  guard (device.toList.all deviceCharacter ∧ 1 ≤ device.length ∧ device.length ≤ 128)
  guard (1 ≤ token.length ∧ token.length ≤ 4096)
  return { deviceId := device, accessToken := token, privateKey := circumstances.privateKey,
           publicKey := circumstances.publicKey, registeredAt := circumstances.now, phase :=
             .registered, config := none,
           ownedOutbounds := [] }

def fail (error : String) : Program Host String :=
  .raise (.raised error)

/-- The handler of `apply`: the original files and, when Xray was running, its restart. -/
def restore : Program Host String :=
  .sure Host.recover <|
    if circumstances.running then
      .attempt (.call .done) (fun _ => .done)
        (fail "WARP activation failed; original files restored; inspect runtime status")
    else fail "WARP activation failed; original files restored; inspect runtime status"

/-- The transaction of `apply`. -/
def activate (config : Fields) (state : WarpState) : Program Host String :=
  .read fun host =>
    if host.record.isSome then fail "Unresolved host transaction; recovery is required"
    else
      .step (Host.begin config state) <|
        .attempt (if circumstances.running then .call (.step Host.commit .done) else .step Host.commit .done)
          (fun _ => restore circumstances) .done

/-- `Warp.apply`. -/
def apply (state : WarpState) (remove : Bool) : Program Host String :=
  .read fun host =>
    match candidate codec host.config (some state) remove with
    | .error error => fail error
    | .ok config =>
      if !circumstances.accepts config then fail "Xray rejected WARP configuration; no changes were activated"
      else
        match if remove then some [] else buildOutbounds codec state with
        | none => fail "WARP provider configuration needs refresh"
        | some owned => activate circumstances config { state with ownedOutbounds := owned }

/-- The end of `install` and of `set_license`, with the provider's answer. -/
def configure (state : WarpState) (response : Json) : Program Host String :=
  match peerConfig codec response with
  | none => fail "WARP provider configuration is incomplete or invalid"
  | some config =>
    .step (Host.save { state with config := some config })
      (apply codec circumstances { state with config := some config } false)

/-- `api.refresh`, with what follows it. -/
def refresh (state : WarpState) : Program Host String :=
  match circumstances.refreshed with
  | none => fail "WARP provider request failed or timed out"
  | some response => configure codec circumstances state response

/-- `api.register`, with what follows it. -/
def register : Program Host String :=
  match circumstances.registration with
  | none => fail "WARP provider request failed or timed out"
  | some response =>
    match newState circumstances response with
    | none => fail "WARP registration returned invalid device credentials"
    | some state =>
      .sure (Host.register state.deviceId) (.step (Host.save state) (configure codec circumstances state response))

/-- `Warp.install`. -/
def install (body : Fields) : Program Host String :=
  .read fun host =>
    if (host.file.map WarpState.phase) = some .removing then
      fail "WARP removal is pending; retry removal before installing"
    else if !circumstances.enabled then fail "Install Xray before installing WARP"
    else
      match host.file with
      | some state => refresh codec circumstances state
      | none =>
        if !isTrue "accept_terms" body then fail "Explicit acceptance of Cloudflare application terms is required"
        else
          match candidate codec host.config none false with
          | .error error => fail error
          | .ok _ =>
            if !circumstances.accepts host.config then fail "Install a working Xray runtime before registering WARP"
            else register codec circumstances

/-- The check of a license. -/
def validLicense (body : Fields) : Bool :=
  match body.lookup "license" with
  | some (.str value) =>
    1 ≤ (codec.strip value).length && (codec.strip value).length ≤ 255 && value.toList.all fun c => 32 ≤ c.toNat
  | _ => false

/-- `Warp.set_license`. -/
def setLicense (body : Fields) : Program Host String :=
  .read fun host =>
    if !validLicense codec body then fail "A valid WARP+ credential is required"
    else
      match host.file with
      | none => fail "Register free WARP before updating WARP+ credentials"
      | some state =>
        if state.phase ≠ .registered then fail "Register free WARP before updating WARP+ credentials"
        else
          match candidate codec host.config (some state) false with
          | .error error => fail error
          | .ok _ => .call (refresh codec circumstances state)

/-- `Warp.remove`. -/
def remove (body : Fields) : Program Host String :=
  .read fun host =>
    if !isTrue "confirm" body then fail "Explicit WARP removal confirmation is required"
    else
      match candidate codec host.config host.file true with
      | .error error => fail error
      | .ok _ =>
        match host.file with
        | none => .done
        | some state =>
          .step (Host.save { state with phase := .removing }) <|
            (apply codec circumstances { state with phase := .removing } true).seq <|
              .step (Host.confirmDeletion state.deviceId) (.step Host.forget .done)

inductive Call where
  | install (body : Fields)
  | license (body : Fields)
  | remove (body : Fields)

def Call.program : Call → Program Host String
  | .install body => Warp.install codec circumstances body
  | .license body => setLicense codec circumstances body
  | .remove body => Warp.remove codec circumstances body

/-- A start of the Agent, or a call with all that it meets. -/
inductive Event where
  | start
  | call (call : Call) (circumstances : Circumstances) (effects : Nat → Effect)

/-- After a call that is killed the Agent starts again. -/
def Host.step (host : Host) : Event → Host
  | .start => host.recover
  | .call call circumstances effects =>
    match (call.program codec circumstances).run effects host with
    | (after, .killed) => after.recover
    | (after, _) => after

def Host.run (host : Host) (events : List Event) : Host :=
  events.foldl (Host.step codec) host

/-- The outbounds with a WARP tag are those of the own file, and none without it. -/
def Host.Owned (host : Host) : Prop :=
  (warps host.config).Perm ((host.file.map WarpState.ownedOutbounds).getD [])

/-- The credentials of one device. -/
def SameDevice (before after : WarpState) : Prop :=
  after.deviceId = before.deviceId ∧ after.accessToken = before.accessToken ∧
    after.privateKey = before.privateKey ∧ after.publicKey = before.publicKey

theorem SameDevice.refl (state : WarpState) : SameDevice state state :=
  ⟨rfl, rfl, rfl, rfl⟩

theorem SameDevice.trans {a b c : WarpState} (first : SameDevice a b) (second : SameDevice b c) : SameDevice a c :=
  ⟨second.1.trans first.1, second.2.1.trans first.2.1, second.2.2.1.trans first.2.2.1,
    second.2.2.2.trans first.2.2.2⟩

/-- The file of a device: its credentials stay, and a removal is not taken back. -/
structure Follows (before after : WarpState) : Prop where
  device : SameDevice before after
  removing : before.phase = .removing → after.phase = .removing

/-- What the file holds before the configuration changes. -/
def Noted : Option WarpState → Option WarpState → Prop
  | none, none => True
  | none, some state => state.ownedOutbounds = []
  | some before, some after => Follows before after ∧ after.ownedOutbounds = before.ownedOutbounds
  | some _, none => False

/-- What a start, a call or a run of them leaves of the host where it begins. -/
structure Along (s t : Host) : Prop where
  record : t.record = none
  elsewhere : ∀ key, key ≠ "outbounds" → t.config.lookup key = s.config.lookup key
  others : others t.config = others s.config
  first : ∀ item rest, outbounds s.config = item :: rest → ∃ first rest, outbounds t.config = first :: rest ∧
    tagOf first = tagOf item
  owned : s.Owned → t.Owned
  deletions : s.deleted <+: t.deleted
  device : ∀ state, s.file = some state → t.deleted = s.deleted → ∃ after, t.file = some after ∧ Follows state after
  removing : ∀ state, s.file = some state → state.phase = .removing → t.deleted = s.deleted →
    ∀ item ∈ warps t.config, item ∈ warps s.config

/-- A start or a call does not take away what the configuration chooses. -/
structure After (s t : Host) : Prop extends Along s t where
  chosen : Chosen (.obj s.config) → ∀ item ∈ warps s.config, ∃ other ∈ warps t.config, tagOf other = tagOf item

theorem Along.no_deletion {s t u : Host} (before : Along s t) (after : Along t u) (same : u.deleted = s.deleted) :
    t.deleted = s.deleted :=
  (before.deletions.eq_of_length_le (same ▸ after.deletions.length_le)).symm

theorem Along.trans {s t u : Host} (before : Along s t) (after : Along t u) : Along s u where
  record := after.record
  elsewhere key other := (after.elsewhere key other).trans (before.elsewhere key other)
  others := after.others.trans before.others
  first item rest listed := by
    obtain ⟨mid, mids, there, same⟩ := before.first item rest listed
    obtain ⟨last, lasts, here, again⟩ := after.first mid mids there
    exact ⟨last, lasts, here, again.trans same⟩
  owned owned := after.owned (before.owned owned)
  deletions := before.deletions.trans after.deletions
  device state known same := by
    have half := before.no_deletion after same
    obtain ⟨mid, there, follows⟩ := before.device state known half
    obtain ⟨last, here, later⟩ := after.device mid there (same.trans half.symm)
    exact ⟨last, here, follows.device.trans later.device, later.removing ∘ follows.removing⟩
  removing state known phase same item here := by
    have half := before.no_deletion after same
    obtain ⟨mid, there, follows⟩ := before.device state known half
    exact before.removing state known phase half item
      (after.removing mid there (follows.removing phase) (same.trans half.symm) item here)

theorem Noted.after {s t : Host} (record : t.record = none) (config : t.config = s.config)
    (deleted : t.deleted = s.deleted)
    (file : Noted s.file t.file) : After s t where
  record := record
  elsewhere key _ := by rw [config]
  others := by rw [config]
  first item rest listed := ⟨item, rest, config ▸ listed, rfl⟩
  owned owned := by
    unfold Host.Owned at owned ⊢
    rw [config]
    refine owned.trans (.of_eq ?_)
    revert file
    cases s.file <;> cases t.file <;> intro file
    · rfl
    · exact Eq.symm file
    · exact file.elim
    · exact file.2.symm
  chosen _ item here := ⟨item, config ▸ here, rfl⟩
  deletions := deleted ▸ prefix_refl _
  device state known _ := by
    rw [known] at file
    cases found : t.file with
    | none => exact (found ▸ file : Noted (some state) none).elim
    | some after => exact ⟨after, rfl, (found ▸ file : Noted (some state) (some after)).1⟩
  removing _ _ _ _ item here := config ▸ here

theorem Noted.refl (file : Option WarpState) : Noted file file := by
  cases file with
  | none => trivial
  | some state => exact ⟨⟨.refl state, id⟩, rfl⟩

theorem Placed.after {s t : Host} {items : List Fields} (placed : Placed s.config t.config items)
    (record : t.record = none)
    (owned : (t.file.map WarpState.ownedOutbounds).getD [] = items)
    (chosen : Chosen (.obj s.config) → ∀ item ∈ Warp.warps s.config, ∃ other ∈ items, tagOf other = tagOf item)
    (deletions : s.deleted <+: t.deleted)
    (device : ∀ state, s.file = some state → t.deleted = s.deleted → ∃ after, t.file = some after ∧
      Follows state after)
    (removing : ∀ state, s.file = some state → state.phase = .removing → items = []) : After s t where
  record := record
  elsewhere := placed.elsewhere
  others := placed.others
  first := placed.first
  owned _ := by
    rw [Host.Owned, owned]
    exact placed.warps
  chosen chosen' item here := by
    obtain ⟨other, inside, same⟩ := chosen chosen' item here
    exact ⟨other, placed.warps.mem_iff.mpr inside, same⟩
  deletions := deletions
  device := device
  removing state known phase _ item here := by
    have none_left := placed.warps
    rw [removing state known phase, perm_nil] at none_left
    rw [none_left] at here
    cases here

variable {host : Host}

theorem Host.recover_idle (idle : host.record = none) : host.recover = host := by
  rw [recover, idle]

theorem Host.recover_begin (idle : host.record = none) (config : Fields) (state : WarpState) :
    (host.begin config state).recover = host := by
  cases host
  cases idle
  rfl

section

variable {codec} {circumstances} {s t : Host} {state : WarpState}

/-- Wherever the program stops, a start or its end is one that may follow. -/
def Settles (s : Host) (Q : Host → Prop) (p : Program Host String) (t : Host) : Prop :=
  Assured (fun u => After s u.recover) Q (fun _ => After s) p t

variable {Q : Host → Prop}

theorem After.fail (after : After s t) (error : String) : Settles s Q (fail error) t :=
  .raise after

theorem After.killed (after : After s t) : After s t.recover := by
  rw [Host.recover_idle after.record]
  exact after

theorem restore_settles (killed : After s t.recover) : Settles s Q (restore circumstances) t := by
  refine .sure killed ?_
  split
  · exact .attempt (.call killed.killed (fun _ => .done (killed.fail _)) (.done (killed.fail _)))
  · exact killed.fail _

theorem activate_settles {config : Fields} (after : After s t)
    (done : Q { t with config := config, file := some state }) :
    Settles s Q (activate circumstances config state) t := by
  refine .read ?_
  rw [if_neg (by simp [after.record])]
  have undone : After s (t.begin config state).recover := by
    rw [Host.recover_begin after.record]
    exact after
  have committed : (t.begin config state).commit = { t with config := config, file := some state } := by
    cases t
    cases after.record
    rfl
  refine .step after.killed (fun _ => after) (.attempt ?_)
  have commit : Assured (fun u => After s u.recover) (Settles s Q .done)
      (fun _ => Settles s (Settles s Q .done) (restore circumstances))
        (.step Host.commit .done : Program Host String)
      (t.begin config state) := by
    refine .step undone (fun _ => restore_settles undone) (.done (.done ?_))
    rw [committed]
    exact done
  split
  · exact .call undone (fun _ => restore_settles undone) commit
  · exact commit

theorem buildOutbounds_tagged {items : List Fields} (built : buildOutbounds codec state = some items)
    {item : Fields}
    (warp : isWarp item = true) : ∃ other ∈ items, tagOf other = tagOf item := by
  obtain ⟨tag, known⟩ := Option.isSome_iff_exists.mp warp
  obtain ⟨named, inside⟩ := warpTag_eq.mp known
  have member := mem_map_of_mem (f := some) inside
  rw [← buildOutbounds_tags codec built] at member
  obtain ⟨other, here, same⟩ := List.mem_map.mp member
  exact ⟨other, here, by rw [named, (warpTag_eq.mp same).1]⟩

/-- What a call knows of its file before it applies a configuration. -/
structure Ready (s t : Host) (state : WarpState) : Prop where
  config : t.config = s.config
  file : t.file = some state
  noted : Noted s.file (some state)
  record : t.record = none
  deleted : t.deleted = s.deleted

section

variable (ready : Ready s t state)
include ready

theorem Ready.after : After s t :=
  Noted.after ready.record ready.config ready.deleted (ready.file ▸ ready.noted)

theorem Ready.continues {before : WarpState} (known : s.file = some before) : Follows before state :=
  (known ▸ ready.noted : Noted (some before) (some state)).1

theorem Ready.save {next : WarpState} (follows : Follows state next)
    (owned : next.ownedOutbounds = state.ownedOutbounds) : Ready s (t.save next) next where
  config := ready.config
  file := rfl
  noted := by
    have noted := ready.noted
    cases known : s.file with
    | none => exact owned.trans (known ▸ noted : Noted none (some state))
    | some before =>
      rw [known] at noted
      exact ⟨⟨noted.1.device.trans follows.device, follows.removing ∘ noted.1.removing⟩, owned.trans noted.2⟩
  record := ready.record
  deleted := ready.deleted

theorem apply_installed (registered : ∀ before, s.file = some before → before.phase ≠ .removing) :
    Settles s (After s) (apply codec circumstances state false) t := by
  have after := ready.after
  refine .read ?_
  split
  · exact after.fail _
  · rename_i config accepted
    split
    · exact after.fail _
    · obtain ⟨items, built, placed⟩ := candidate_placed codec accepted
      rw [if_neg Bool.false_ne_true, built]
      rw [ready.config] at placed
      refine activate_settles after (placed.after ready.record rfl ?_ (ready.deleted ▸ prefix_refl _) ?_ ?_)
      · exact fun _ item here => buildOutbounds_tagged built (of_mem_filter here)
      · exact fun before known _ => ⟨_, rfl, (ready.continues known).device, (ready.continues known).removing⟩
      · exact fun before known phase => absurd phase (registered before known)

theorem apply_removed : Settles s (fun u => ∃ config, Placed s.config config [] ∧ ¬Chosen (.obj s.config) ∧
      u = { t with config := config, file := some { state with ownedOutbounds := [] } })
      (apply codec circumstances state true) t := by
  have after := ready.after
  refine .read ?_
  split
  · exact after.fail _
  · rename_i config accepted
    split
    · exact after.fail _
    · obtain ⟨free, placed⟩ := candidate_removed codec accepted
      rw [ready.config] at free placed
      exact activate_settles after ⟨config, placed, free, rfl⟩

theorem configure_settles (registered : ∀ before, s.file = some before → before.phase ≠ .removing)
    (response : Json) : Settles s (After s) (configure codec circumstances state response) t := by
  unfold configure
  split
  · exact ready.after.fail _
  · exact .step ready.after.killed (fun _ =>
      ready.after) (apply_installed (ready.save ⟨.refl state, id⟩ rfl) registered)

theorem refresh_settles (registered : ∀ before, s.file = some before → before.phase ≠ .removing) :
    Settles s (After s) (refresh codec circumstances state) t := by
  unfold refresh
  split
  · exact ready.after.fail _
  · exact configure_settles ready registered _

end

theorem newState_fresh {response : Json} (made : newState circumstances response = some state) :
    state.ownedOutbounds = [] := by
  simp only [newState, Option.bind_eq_bind, Option.bind_eq_some_iff, Option.pure_def, Option.some.injEq] at made
  obtain ⟨-, -, -, -, -, -, -, -, -, -, -, -, rfl⟩ := made
  rfl

theorem register_settles (idle : s.record = none) (absent : s.file = none) :
    Settles s (After s) (register codec circumstances) s := by
  have still : After s s := Noted.after idle rfl rfl (.refl _)
  unfold register
  split
  · exact still.fail _
  · split
    · exact still.fail _
    · rename_i response _ _ state made
      have known : After s (s.register state.deviceId) := Noted.after idle rfl rfl (.refl _)
      have ready : Ready s ((s.register state.deviceId).save state) state :=
        ⟨rfl, rfl, absent ▸ newState_fresh made, idle, rfl⟩
      refine .sure still.killed (.step known.killed (fun _ => known) (configure_settles ready ?_ response))
      exact fun before found => absurd (absent.symm.trans found) nofun

theorem install_settles (idle : s.record = none) (body : Fields) :
    Settles s (After s) (install codec circumstances body) s := by
  have still : After s s := Noted.after idle rfl rfl (.refl _)
  refine .read ?_
  split
  · exact still.fail _
  · rename_i registered
    split
    · exact still.fail _
    · split
      · rename_i state found
        refine refresh_settles ⟨rfl, found, found ▸ .refl _, idle, rfl⟩ fun before known phase => registered ?_
        rw [known, ← phase]
        rfl
      · rename_i absent
        split
        · exact still.fail _
        · split
          · exact still.fail _
          · split
            · exact still.fail _
            · exact register_settles idle absent

theorem setLicense_settles (idle : s.record = none) (body : Fields) :
    Settles s (After s) (setLicense codec circumstances body) s := by
  have still : After s s := Noted.after idle rfl rfl (.refl _)
  refine .read ?_
  split
  · exact still.fail _
  · split
    · exact still.fail _
    · rename_i state found
      split
      · exact still.fail _
      · rename_i registered
        split
        · exact still.fail _
        · refine .call still.killed (fun _ => still) (refresh_settles ⟨rfl, found, found ▸ .refl _, idle, rfl⟩ ?_)
          intro before known phase
          cases found.symm.trans known
          exact registered fun same => nomatch same.symm.trans phase

theorem removed_after {u : Host} (idle : u.record = none) (placed : Placed s.config u.config [])
    (free : ¬Chosen (.obj s.config)) (owned : (u.file.map WarpState.ownedOutbounds).getD [] = [])
    (deletions : s.deleted <+: u.deleted)
    (device : ∀ before, s.file = some before → u.deleted = s.deleted → ∃ after, u.file = some after ∧
      Follows before after) :
    After s u :=
  placed.after idle owned (fun chosen => absurd chosen free) deletions device fun _ _ _ => rfl

theorem delete_settles {u : Host} {gone : WarpState} {device : String} (idle : u.record = none)
    (placed : Placed s.config u.config []) (free : ¬Chosen (.obj s.config)) (file : u.file = some gone)
    (owned : gone.ownedOutbounds = []) (same : u.deleted = s.deleted)
    (follows : ∀ before, s.file = some before → Follows before gone) :
    Settles s (After s) (.step (Host.confirmDeletion device) (.step Host.forget .done)) u := by
  have more : s.deleted <+: u.deleted ++ [device] := same ▸ prefix_append _ _
  have counted : u.deleted ++ [device] ≠ s.deleted := fun both => by simpa [same] using congrArg List.length both
  have disabled : After s u := removed_after idle placed free (file ▸ owned) (same ▸ prefix_refl _)
    fun before known _ => ⟨gone, file, follows before known⟩
  have confirmed : After s (u.confirmDeletion device) := removed_after idle placed free (file ▸ owned) more
    fun _ _ both => absurd both counted
  have forgotten : After s (u.confirmDeletion device).forget := removed_after idle placed free rfl more
    fun _ _ both => absurd both counted
  exact .step disabled.killed (fun _ => disabled) (.step confirmed.killed (fun _ => confirmed) (.done forgotten))

theorem remove_settles (idle : s.record = none) (body : Fields) :
    Settles s (After s) (Warp.remove codec circumstances body) s := by
  have still : After s s := Noted.after idle rfl rfl (.refl _)
  refine .read ?_
  split
  · exact still.fail _
  · split
    · exact still.fail _
    · split
      · exact .done still
      · rename_i state found
        have pending : Follows state { state with phase := .removing } := ⟨.refl _, fun _ => rfl⟩
        have ready : Ready s (s.save { state with phase := .removing }) { state with phase := .removing } :=
          ⟨rfl, rfl, found ▸ ⟨pending, rfl⟩, idle, rfl⟩
        refine .step still.killed (fun _ =>
          still) (.seq ((apply_removed ready).mono (fun _ => id) ?_ fun _ _ => id))
        rintro _ ⟨config, placed, free, rfl⟩
        refine delete_settles idle placed free rfl rfl rfl fun before known => ?_
        cases found.symm.trans known
        exact ⟨pending.device, pending.removing⟩

theorem step_after (codec : Codec) (idle : s.record = none) (event : Event) : After s (s.step codec event) := by
  have still : After s s := Noted.after idle rfl rfl (.refl _)
  cases event with
  | start => exact still.killed
  | call call circumstances effects =>
    have settles : Settles s (After s) (call.program codec circumstances) s := by
      cases call with
      | install body => exact install_settles idle body
      | license body => exact setLicense_settles idle body
      | remove body => exact remove_settles idle body
    have ends := settles effects
    unfold Host.step
    dsimp only
    revert ends
    rcases (call.program codec circumstances).run effects s with ⟨t, _ | error | _⟩
    · exact id
    · exact id
    · exact id

theorem run_along (codec : Codec) (idle : s.record = none) (events : List Event) :
    Along s (s.run codec events) := by
  induction events generalizing s with
  | nil => exact (Noted.after idle rfl rfl (.refl _)).toAlong
  | cons event rest ih =>
    have first := step_after codec idle event
    exact first.toAlong.trans (ih first.record)

end

/-- From a configuration that has the recorded WARP outbounds only, after every
start or call of any run: the other outbounds and the default are the same, the
WARP outbounds are the recorded ones, and the next start or call takes none away
that is chosen. Until the provider confirms a deletion the credentials stay, and
once a removal is accepted no WARP outbound comes back. -/
theorem lifecycle_in_step (codec : Codec) (initial : Host) (idle : initial.record = none) (owned : initial.Owned)
    (events : List Event) :
    (initial.run codec events).Owned ∧ others (initial.run codec events).config = others initial.config ∧
      (∀ key, key ≠ "outbounds" → (initial.run codec events).config.lookup key = initial.config.lookup key) ∧
      (∀ item rest, outbounds initial.config = item :: rest →
        ∃ first rest', outbounds (initial.run codec events).config = first :: rest' ∧ tagOf first = tagOf item ∧
          (isWarp item = false → first = item)) ∧
      (∀ event, Chosen (.obj (initial.run codec events).config) → ∀ item ∈ warps (initial.run codec events).config,
        ∃ other ∈ warps ((initial.run codec events).step codec event).config, tagOf other = tagOf item) ∧
      (∀ state later, (initial.run codec events).file = some state →
        (initial.run codec (events ++ later)).deleted = (initial.run codec events).deleted →
        (∃ after, (initial.run codec (events ++ later)).file = some after ∧ SameDevice state after) ∧
        (state.phase = .removing → ∀ item ∈ warps (initial.run codec (events ++ later)).config,
          item ∈ warps (initial.run codec events).config)) := by
  have along := run_along codec idle events
  refine ⟨along.owned owned, along.others, along.elsewhere, fun item rest listed => ?_, fun event => ?_,
    fun state later known same => ?_⟩
  · obtain ⟨first, rest', there, tag⟩ := along.first item rest listed
    refine ⟨first, rest', there, tag, fun plain => ?_⟩
    have same_first := along.others
    have alike : isWarp first = false := by
      rw [isWarp, Bool.eq_false_iff, ne_eq, Option.isSome_iff_exists] at plain ⊢
      rintro ⟨warp, known⟩
      exact plain ⟨warp, warpTag_eq.mpr ⟨tag ▸ (warpTag_eq.mp known).1, (warpTag_eq.mp known).2⟩⟩
    rw [others, others, listed, there, filter_cons_of_pos (by simp [alike]),
      filter_cons_of_pos (by simp [plain])] at same_first
    exact (List.cons.inj same_first).1
  · exact (step_after codec along.record event).chosen
  · rw [Host.run, foldl_append] at same ⊢
    have further := run_along codec along.record later
    obtain ⟨after, there, follows⟩ := further.device state known same
    exact ⟨⟨after, there, follows.device⟩, fun phase => further.removing state known phase same⟩

/-- A codec that takes every value. -/
def plainCodec : Codec where
  decodeKey _ length := some (List.replicate length 0)
  address _ value := some value
  endpoint _ := true
  strip := id

def answer : Json :=
  .obj [("id", .str "device"), ("token", .str "token"),
    ("config", .obj [("client_id", .str "AAAA"),
      ("interface", .obj [("addresses", .obj [("v4", .str "172.16.0.2")])]),
      ("peers", .arr [.obj [("public_key", .str "peer"), ("endpoint", .obj [("host", .str "host:2408")])]])])]

def working : Circumstances where
  enabled := true
  running := true
  accepts _ := true
  registration := some answer
  refreshed := some answer
  privateKey := "private"
  publicKey := "public"
  now := "now"

def hostWith (tags : List String) : Host where
  config := [("outbounds", .arr (tags.map fun tag => .obj [("tag", .str tag)]))]
  file := none
  record := none
  registered := []
  deleted := []

def accepted : Fields :=
  [("accept_terms", .bool true), ("confirm", .bool true)]

/-- An installation and a removal of which all steps take effect. -/
theorem lifecycle_in_step_removal :
    (outbounds ((hostWith ["direct"]).run plainCodec
        [.call (.install accepted) working Program.quiet]).config).map tagOf = [.str "direct", .str "warp-v4",
          .str "warp-v6"] ∧
      ((hostWith ["direct"]).run plainCodec
        [.call (.install accepted) working Program.quiet, .call (.remove accepted) working Program.quiet]).Owned :=
  ⟨rfl, (lifecycle_in_step plainCodec (hostWith ["direct"]) rfl (.refl _) _).1⟩

/-- A registration that is killed before its first write. -/
def interrupted : Host :=
  (hostWith ["direct"]).run plainCodec [.call (.install accepted) working fun n => if n = 1 then .killed else .done]

/-- An outbound that somebody else has given a WARP tag stays without a file, and
an Agent that is killed between the answer to its registration and its file
holds no credentials of the device. -/
theorem foreign_outbound_stays :
    ¬((hostWith ["direct", "warp-v4"]).run plainCodec [.start,
      .call (.install accepted) working Program.quiet]).Owned ∧
      interrupted.registered = ["device"] ∧ interrupted.deleted = [] ∧ interrupted.file = none := by
  refine ⟨fun owned => ?_, rfl, rfl, rfl⟩
  have counted := owned.length_eq
  exact absurd counted (by decide)

end OpenNode.Warp
