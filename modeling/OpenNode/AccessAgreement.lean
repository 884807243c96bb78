import OpenNode.AccessAdmission
import OpenNode.AccessCoordinator

namespace OpenNode.AccessCoordinator

open List ManagedProtocols
open Loops
open LastWord (IsLast Members members_append)
open OpenNode.NodeLimits (Float64)

variable {F : Type}

section Conditions

variable [Float64 F] (texts : Texts F) (c : Controller F)

namespace Controller

/-- What the Agent gets of a row. -/
def accessBody (row : Row F) : List AccessEntry :=
  (c.desired texts row).entries.map Entry.toAccess

/-- The access commands of rows agree with a snapshot of now: those that can be leased are carried out by the
listeners of an earlier one, and those of the rows at their desired state, in any order, leave the
users of a new one. -/
structure Agrees (before : ManagedProtocolsRequest) : Prop where
  executable : ∀ row ∈ c.rows, c.canLease texts row = true →
    ∃ result, accessCandidate (some before) (c.accessBody texts row) = .ok result
  users : ∀ order : List (Row F), order.Perm (c.rows.filter (c.atDesired texts)) →
    ∃ final, (order.map (c.accessBody texts)).foldlM execute before = .ok final ∧
      ∀ now, c.snapshot texts = some now → ∀ listener ∈ now.listeners, ∀ mine ∈ final.listeners,
        mine.tag = listener.tag →
        ∀ user, user ∈ mine.users ↔ user ∈ listener.users

/-- The entry of a binding, without limits and routing. -/
def plainEntry (row : Row F) (binding : Binding) : AccessEntry where
  tag := binding.tag
  protocol := binding.protocol
  client := binding.client
  enabled := !(c.grantedNodes row binding).isEmpty

/-- No limit and no route is asked for a binding: its nodes are not routed, its user has no limit there, its plan no
automatic speed rule, and the Agent no limiter of its own. -/
structure Plain (row : Row F) (binding : Binding) : Prop where
  speed : speedLimit ((c.grantedNodes row binding).map (effectiveLimits row.user (c.plan? row.user))) = 0
  devices : deviceLimit ((c.grantedNodes row binding).map (effectiveLimits row.user (c.plan? row.user))) = 0
  native : c.nativeLimiter = false
  rules : ((c.plan? row.user).map Plan.autoSpeedRules).getD [] = []
  unrouted : ∀ node ∈ c.grantedNodes row binding, node.route.selects = false

/-- The words of some rows on the users of a listener. -/
def words (rows : List (Row F)) (listener : ManagedListener) : List (ManagedUser × Bool) :=
  entryWords listener.profile (entriesFor (rows.flatMap fun row => row.bindings.map (c.plainEntry row)) listener)

/-- A row fits a listener with some users: what it grants there is plain, its clients can be read as users of the
profile that agree with those listed at their turn, and the users it leaves can be had. -/
structure RowFits (row : Row F) (listener : ManagedListener) (start : ManagedUser → Prop) : Prop where
  plain : ∀ binding ∈ row.bindings, binding.tag = listener.tag → c.grantedNodes row binding ≠ [] →
    c.Plain row binding
  admitted : Admitted listener.profile start (entriesFor (row.bindings.map (c.plainEntry row)) listener)

/-- A user that a snapshot writes at a tag: of the granted bindings of one name, the last. -/
def Written (tag : String) (user : ManagedUser) : Prop :=
  ∃ draft, IsLast Draft.name ((c.grantedAt tag).map fun item =>
    draftUser texts item.1.user.username item.2.client) draft ∧
    draft.modelValidate = some user

/-- The users that a snapshot writes at a listener are those on whom the last word is a grant, and
those of before on
whom there is none. -/
structure Alike (rows : List (Row F)) (listener : ManagedListener) : Prop where
  kept : ∀ user ∈ listener.users, (∀ word ∈ c.words rows listener, word.1 ≠ user) →
    c.Written texts listener.tag user
  granted : ∀ user, IsLast Prod.fst (c.words rows listener) (user, true) → c.Written texts listener.tag user
  written : ∀ user, c.Written texts listener.tag user →
    IsLast Prod.fst (c.words rows listener) (user, true) ∨
      user ∈ listener.users ∧ ∀ word ∈ c.words rows listener, word.1 ≠ user

/-- When the access commands agree with a snapshot. -/
structure Meets (before : ManagedProtocolsRequest) : Prop where
  leased : ∀ row ∈ c.rows, c.canLease texts row = true → ∀ listener ∈ before.listeners,
    c.RowFits row listener (· ∈ listener.users)
  inTurn : ∀ order : List (Row F), order.Perm (c.rows.filter (c.atDesired texts)) →
    ∀ past row later, order = past ++ row :: later →
    ∀ listener ∈ before.listeners, c.RowFits row listener (Members (· ∈ listener.users) (c.words past listener))
  alike : ∀ order : List (Row F), order.Perm (c.rows.filter (c.atDesired texts)) →
    (c.snapshot texts).isSome = true →
    ∀ listener ∈ before.listeners, ∀ node ∈ c.managedNodes, node.inboundTag = some listener.tag →
      c.Alike texts order listener

end Controller

end Conditions

section Rows

variable [Float64 F] {texts : Texts F} {c : Controller F} {row : Row F} {binding : Binding}
  {listener : ManagedListener}

namespace Controller

theorem Plain.toAccess (plain : c.grantedNodes row binding ≠ [] → c.Plain row binding) :
    (c.entry texts row binding).toAccess = c.plainEntry row binding := by
  unfold Controller.entry Entry.toAccess plainEntry
  by_cases granted : c.grantedNodes row binding = []
  · simp [granted, routes]
  · have plain := plain granted
    have unrouted := routes_eq_nil.mpr plain.unrouted
    have unlimited : c.limiter texts row binding (c.grantedNodes row binding) = none := by
      simp [limiter, plain.speed, plain.devices, plain.native, plain.rules]
    simp [unrouted, unlimited]

/-- What a row grants at a listener is plain. -/
def PlainAt (c : Controller F) (row : Row F) (listener : ManagedListener) : Prop :=
  ∀ binding ∈ row.bindings, binding.tag = listener.tag → c.grantedNodes row binding ≠ [] → c.Plain row binding

theorem PlainAt.entriesFor (plain : c.PlainAt row listener) :
    entriesFor (c.accessBody texts row) listener = ManagedProtocols.entriesFor (row.bindings.map (c.plainEntry row))
      listener := by
  unfold accessBody desired ManagedProtocols.entriesFor
  rw [map_map, filter_map, filter_map]
  have tags : (fun entry : AccessEntry => listener.tag == entry.tag) ∘ Entry.toAccess ∘ c.entry texts row =
      (fun entry => listener.tag == entry.tag) ∘ c.plainEntry row := rfl
  rw [tags]
  refine map_congr_left fun binding member => ?_
  obtain ⟨inside, own⟩ := List.mem_filter.mp member
  exact Plain.toAccess (plain binding inside (beq_iff_eq.mp own).symm)

theorem plain_of_known {profile : Profile} {credential : Credential}
    (known : (c.entry texts row binding).toAccess.credential profile = .ok credential)
    (granted : c.grantedNodes row binding ≠ []) :
    c.Plain row binding := by
  have unlimited : (c.entry texts row binding).toAccess.limiter = none ∧
      (c.entry texts row binding).toAccess.routingUserAdditions = [] := by
    unfold AccessEntry.credential at known
    dsimp only at known
    split at known
    · nomatch known
    split at known
    · nomatch known
    rename_i plain
    simpa [and_comm] using plain
  unfold Controller.entry Entry.toAccess at unlimited
  dsimp only at unlimited
  rw [if_neg (by simpa using granted), Option.map_eq_none_iff, map_eq_nil_iff, routes_eq_nil] at unlimited
  obtain ⟨limits, unrouted⟩ := unlimited
  unfold limiter at limits
  dsimp only at limits
  split at limits
  · nomatch limits
  · rename_i none
    simp only [Bool.or_eq_true, bne_iff_ne, not_or, not_not, Bool.not_eq_true, Bool.not_eq_false', List.isEmpty_iff]
      at none
    obtain ⟨⟨⟨speed, devices⟩, native⟩, rules⟩ := none
    exact ⟨speed, devices, native, rules, unrouted⟩

theorem admitted_iff {start : ManagedUser → Prop} :
    Admitted listener.profile start (entriesFor (c.accessBody texts row) listener) ↔
      c.RowFits row listener start := by
  constructor
  · intro admitted
    have plain : c.PlainAt row listener := by
      intro binding member own granted
      have inside : (c.entry texts row binding).toAccess ∈ entriesFor (c.accessBody texts row) listener := by
        refine List.mem_filter.mpr ⟨?_, by simpa [Controller.entry, Entry.toAccess] using own.symm⟩
        exact mem_map_of_mem (mem_map_of_mem member)
      obtain ⟨credential, known⟩ := admitted.carried.known _ inside
      exact plain_of_known known granted
    exact ⟨plain, plain.entriesFor ▸ admitted⟩
  · intro fits
    rw [PlainAt.entriesFor fits.plain]
    exact fits.admitted

end Controller

end Rows

section Orders

variable [Float64 F] {texts : Texts F} {c : Controller F} {order : List (Row F)} {before : ManagedProtocolsRequest}

namespace Controller

variable {listener : ManagedListener}

theorem entriesFor_flatten {bodies : List (List AccessEntry)} :
    entriesFor bodies.flatten listener = (bodies.map fun body => entriesFor body listener).flatten := by
  rw [entriesFor, filter_flatten]
  rfl

theorem words_eq (plain : ∀ row ∈ order, c.PlainAt row listener) :
    entryWords listener.profile (entriesFor (order.map (c.accessBody texts)).flatten listener) =
      c.words order listener := by
  rw [words, flatMap_def, entriesFor_flatten, entriesFor_flatten, map_map, map_map]
  congr 2
  exact map_congr_left fun row member => PlainAt.entriesFor (plain row member)

/-- The rows fit, each with the users that the ones before it leave. -/
def FitInTurn (c : Controller F) (before : ManagedProtocolsRequest) (order : List (Row F)) : Prop :=
  ∀ past row later, order = past ++ row :: later → ∀ listener ∈ before.listeners,
    c.RowFits row listener (Members (· ∈ listener.users) (c.words past listener))

theorem FitInTurn.plainAt (fit : c.FitInTurn before order) (inside : listener ∈ before.listeners) {row : Row F}
    (member : row ∈ order) : c.PlainAt row listener := by
  obtain ⟨past, later, split⟩ := append_of_mem member
  exact (fit past row later split listener inside).plain

theorem allAdmitted_iff : AllAdmitted before (order.map (c.accessBody texts)) ↔ c.FitInTurn before order := by
  constructor
  · intro all
    have plainAt {listener : ManagedListener} (inside : listener ∈ before.listeners) {row : Row F}
        (member : row ∈ order) :
        c.PlainAt row listener := by
      obtain ⟨past, later, rfl⟩ := append_of_mem member
      exact (admitted_iff.mp (all (past.map (c.accessBody texts)) (c.accessBody texts row)
        (later.map (c.accessBody texts)) (by simp) listener inside)).plain
    rintro past row later rfl listener inside
    have admitted := all (past.map (c.accessBody texts)) (c.accessBody texts row) (later.map (c.accessBody texts))
      (by simp) listener inside
    rw [words_eq fun row member => plainAt inside (mem_append_left _ member)] at admitted
    exact admitted_iff.mp admitted
  · intro fit past body later split listener inside
    obtain ⟨earlier, rest, rfl, rfl, others⟩ := List.map_eq_append_iff.mp split
    obtain ⟨row, remaining, rfl, rfl, rfl⟩ := List.map_eq_cons_iff.mp others
    rw [words_eq fun row member => fit.plainAt inside (mem_append_left _ member)]
    exact admitted_iff.mpr (fit earlier row remaining rfl listener inside)

end Controller

end Orders

section Snapshots

variable {texts : Texts F} {c : Controller F} {now : Declaration}

namespace Controller

theorem mem_usersByTag {tag : String} {draft : Draft} : draft ∈ c.usersByTag texts tag ↔
      IsLast Draft.name ((c.grantedAt tag).map fun item =>
        draftUser texts item.1.user.username item.2.client) draft := by
  rw [usersByTag, mem_map]
  constructor
  · rintro ⟨entry, member, rfl⟩
    exact (LastWord.mem_byKey.mp member).1
  · exact fun last => ⟨(draft.name, draft), LastWord.mem_byKey.mpr ⟨last, rfl⟩, rfl⟩

variable {listener : ManagedListener}

theorem listener_written {node : Node} (known : c.listener texts node = some listener) :
    node.inboundTag = some listener.tag ∧ ∀ user, user ∈ listener.users ↔ c.Written texts listener.tag user := by
  simp only [Controller.listener, Option.bind_eq_bind, Option.bind_eq_some_iff, Option.filter_eq_some_iff] at known
  obtain ⟨profile, _, port, _, tag, ⟨tagged, _⟩, config, _, users, validated, built⟩ := known
  split at built
  · cases built
    refine ⟨tagged, fun user => ?_⟩
    have each := mapM_some validated
    constructor
    · intro member
      obtain ⟨draft, inside, valid⟩ := forall₂_exists each.flip member
      exact ⟨draft, mem_usersByTag.mp inside, valid⟩
    · rintro ⟨draft, last, valid⟩
      obtain ⟨other, inside, same⟩ := forall₂_exists each (mem_usersByTag.mpr last)
      cases valid.symm.trans same
      exact inside
  · nomatch built

theorem snapshot_listeners (taken : c.snapshot texts = some now) :
    List.Forall₂ (fun node listener => c.listener texts node = some listener) c.managedNodes now.listeners := by
  simp only [snapshot, Option.bind_eq_bind, Option.bind_eq_some_iff] at taken
  obtain ⟨listeners, mapped, taken⟩ := taken
  split at taken
  · cases taken
    exact mapM_some mapped
  · nomatch taken

theorem alike_iff {rows : List (Row F)} : c.Alike texts rows listener ↔
      ∀ user, Members (· ∈ listener.users) (c.words rows listener) user ↔ c.Written texts listener.tag user := by
  constructor
  · intro alike user
    refine ⟨?_, alike.written user⟩
    rintro (granted | ⟨before, none⟩)
    · exact alike.granted user granted
    · exact alike.kept user before none
  · intro same
    exact ⟨fun user before none => (same user).mp (.inr ⟨before, none⟩), fun user granted =>
      (same user).mp (.inl granted),
      fun user written => (same user).mpr written⟩

end Controller

end Snapshots

section Agreement

variable [Float64 F] (texts : Texts F) (c : Controller F) (before : ManagedProtocolsRequest)

/-- The access commands agree with the snapshots exactly when every row that can be leased or is at
its desired state
fits the listeners, and the last words on their users are those that a new snapshot writes. -/
theorem Controller.agrees_iff : c.Agrees texts before ↔ c.Meets texts before := by
  constructor
  · intro agrees
    refine ⟨fun row member leased listener inside => ?_, fun order perm => ?_,
      fun order perm taken listener inside node among tagged => ?_⟩
    · exact admitted_iff.mp (accessCandidate_exists_iff.mp (agrees.executable row member leased) listener inside)
    · obtain ⟨final, run, _⟩ := agrees.users order perm
      exact allAdmitted_iff.mp (executeAll_exists_iff.mp ⟨final, run⟩)
    · obtain ⟨final, run, same⟩ := agrees.users order perm
      have fit := allAdmitted_iff.mp (executeAll_exists_iff.mp ⟨final, run⟩)
      obtain ⟨now, taken⟩ := Option.isSome_iff_exists.mp taken
      obtain ⟨mine, here, ⟨users, rfl⟩, listed⟩ := forall₂_exists (executeAll_usersAfter run) inside
      obtain ⟨other, there, known⟩ := forall₂_exists (snapshot_listeners taken) among
      obtain ⟨otherTag, written⟩ := listener_written known
      have tags : listener.tag = other.tag := Option.some.inj (tagged.symm.trans otherTag)
      refine alike_iff.mpr fun user => ?_
      rw [words_eq fun row member => fit.plainAt inside member] at listed
      rw [← listed user, tags, ← written user]
      exact same now taken other there _ here tags user
  · intro meets
    refine ⟨fun row member leased => ?_, fun order perm => ?_⟩
    · exact accessCandidate_exists_iff.mpr fun listener inside =>
        admitted_iff.mpr (meets.leased row member leased listener inside)
    · have fit : c.FitInTurn before order := meets.inTurn order perm
      have all : AllAdmitted before (order.map (c.accessBody texts)) := allAdmitted_iff.mpr fit
      obtain ⟨final, run⟩ := executeAll_exists_iff.mpr all
      refine ⟨final, run, fun now taken other there mine here tags user => ?_⟩
      obtain ⟨old, inside, ⟨users, rfl⟩, listed⟩ := forall₂_exists (executeAll_usersAfter run).flip here
      obtain ⟨node, among, known⟩ := forall₂_exists (snapshot_listeners taken).flip there
      obtain ⟨otherTag, written⟩ := listener_written known
      have own : old.tag = other.tag := tags
      have alike := meets.alike order perm (Option.isSome_iff_exists.mpr ⟨now, taken⟩) old inside node among
        (own ▸ otherTag)
      rw [words_eq fun row member => fit.plainAt inside member] at listed
      rw [listed user, written user, ← own]
      exact alike_iff.mp alike user

end Agreement

section Samples

def sampleTexts : Texts ℚ where
  revision _ := "revision"
  connGroup _ _ _ := "account"
  listenersRevision _ := String.ofList (List.replicate 64 'a')
  str value := (value.str?).getD ""

def sampleNode : Node where
  id := "00000000-0000-4000-8000-000000000001"
  serverId := "server"
  protocol := "socks"
  inboundTag := some "socks-1"
  protocolProfile := some .socks5
  runtimePort := some 2000

def sampleRow : Row ℚ where
  user := { username := "ann", currentPlanId := some "plan" }
  serverId := "server"
  bindings := [⟨"socks-1", "socks", .obj [("user", .str "ann"), ("pass", .str "secret"),
    ("email", .str "ann__socks")],
    ["00000000-0000-4000-8000-000000000001"]⟩]

/-- A server with one SOCKS5 node and nobody on it. -/
def emptyController : Controller ℚ where
  now := 0
  serverId := "server"
  plans := [{ id := "plan", nodeIds := ["00000000-0000-4000-8000-000000000001"], speedLimitMbps := 0 }]
  nodes := [sampleNode]
  rows := []
  agent := some ⟨true, true, false⟩

/-- A subscriber without limits is on it now; the Agent can limit. -/
def limitingController : Controller ℚ := { emptyController with rows := [sampleRow] }

/-- The listeners of its snapshot. -/
def emptyRequest : ManagedProtocolsRequest where
  revision := String.ofList (List.replicate 64 'a')
  listeners := [⟨"socks-1", "00000000-0000-4000-8000-000000000001", .v4 0, 2000, true, ⟨none, none⟩,
    .socks5 true, []⟩]
  isValid := by decide +kernel

/-- The Agent refuses the access command of a subscriber without limits, since it can limit. -/
theorem native_limiter_refused :
    (emptyController.snapshot sampleTexts).bind ManagedProtocolsRequest.modelValidate = some emptyRequest ∧
      limitingController.canLease sampleTexts sampleRow = true ∧
      accessCandidate (some emptyRequest) (limitingController.accessBody sampleTexts sampleRow) =
        .error "Mihomo access entries do not support Xray routing or limiter data" ∧
      ¬ limitingController.Agrees sampleTexts emptyRequest := by
  have leased : limitingController.canLease sampleTexts sampleRow = true := by decide +kernel
  have refused : accessCandidate (some emptyRequest) (limitingController.accessBody sampleTexts sampleRow) =
      .error "Mihomo access entries do not support Xray routing or limiter data" := by
    decide +kernel
  refine ⟨by decide +kernel, leased, refused, fun agrees => ?_⟩
  obtain ⟨result, candidate⟩ := agrees.executable sampleRow mem_cons_self leased
  rw [refused] at candidate
  nomatch candidate

end Samples

end OpenNode.AccessCoordinator
