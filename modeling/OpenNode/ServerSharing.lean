import OpenNode.Json

namespace OpenNode.ServerSharing

open List

/-- How a command ends. -/
inductive Outcome where
  | succeeded | failed | skipped
deriving DecidableEq

/-- The actions that the ledger tells apart. -/
inductive TagAction where
  | add | remove | delete | other
deriving DecidableEq

structure Request where
  method : String
  path : String
  body : Option Json := none

def inboundsPath : String := "/api/child/inbounds"

def accessPath : String := "/api/child/subscription-access"

def orElse (a b : Json) : Json := if a.truthy then a else b

/-- `str(value).lower()`, of which only these texts matter. -/
def tagAction (value : Json) : TagAction :=
  match value.str?.map String.toLower with
  | some "add" => .add
  | some "remove" => .remove
  | some "delete" => .delete
  | _ => .other

def tagOperation (payload : Request) : TagAction × String :=
  if payload.path ≠ inboundsPath ∨ payload.method ≠ "POST" then (.other, "")
  else
    let body := payload.body.getD (.obj [])
    (tagAction (orElse (body.get "action") (.str "add")),
      (orElse (body.get "tag") ((body.get "inbound").get "tag")).str?.getD "")

/-- The tag of the inbound that a successful command adds or removes on the
Agent: the one of its entry, or the one of the body. -/
def inboundTag (payload : Request) (action : TagAction) : Option String :=
  let body := payload.body.getD (.obj [])
  if action = .add then ((body.get "inbound").get "tag").str? else (body.get "tag").str?

/-- A command of the share with its row of `server_share_commands`. -/
structure Link where
  payload : Request
  action : TagAction
  tag : String
  outcome : Outcome

/-- A share, the tags of its rows of `server_share_inbounds`, its commands in
the order of the queue and the places of those that are reconciled. -/
structure Share where
  allowManageXray : Bool := false
  revoked : Bool := false
  ownedTags : List String := []
  links : List Link := []
  reconciled : List Nat := []

/-- Whether `_scope` lets a request pass. -/
def Share.scope (share : Share) (payload : Request) : Bool :=
  share.allowManageXray ||
    if payload.path = accessPath ∧ payload.method = "POST" then
      match (payload.body.getD (.obj [])).get "entries" with
      | .arr entries => !entries.isEmpty && entries.all fun item => (item.get "tag").str?.any (· ∈ share.ownedTags)
      | _ => false
    else if payload.path ≠ inboundsPath then false
    else if payload.method = "GET" then true
    else
      let (action, tag) := tagOperation payload
      tag ≠ "" && (action = .add || tag ∈ share.ownedTags)

/-- The rows that a request adds. -/
def Share.record (share : Share) (link : Link) : Share :=
  { share with
    links := share.links ++ [link]
    ownedTags :=
      if link.action = .add ∧ link.tag ≠ "" ∧ link.tag ∉ share.ownedTags then share.ownedTags ++ [link.tag]
      else share.ownedTags }

/-- `create_shared_command`. `available` says that the Agent of the server can
run the command, and `outcome` how the command will end. -/
def Share.createSharedCommand (share : Share) (payload : Request) (available : Bool) (outcome : Outcome) :
    Except (Nat × String) Share :=
  if share.revoked then .error (401, "server_share_token_invalid")
  else if !share.scope payload then .error (403, "server_share_forbidden")
  else if !available then .error (409, "server_share_conflict")
  else
    let (action, tag) := tagOperation payload
    .ok (share.record { payload, action, tag, outcome })

/-- The outcomes at which `_command_read` deletes the row of the tag. -/
def Link.drops (link : Link) : Bool :=
  link.tag ≠ "" &&
    match link.action with
    | .add => link.outcome ≠ .succeeded
    | .remove | .delete => link.outcome = .succeeded
    | .other => false

/-- What `_command_read` does to the ledger, for the command at a place of the
queue that has ended or not. -/
def Share.commandRead (share : Share) (place : Nat) (terminal : Bool) : Share :=
  match share.links[place]? with
  | none => share
  | some link =>
    if terminal ∧ place ∉ share.reconciled then
      { share with
        reconciled := place :: share.reconciled
        ownedTags := if link.drops then share.ownedTags.filter (· ≠ link.tag) else share.ownedTags }
    else share

def removal (tag : String) : Request :=
  { method := "POST", path := inboundsPath, body := some (.obj [("action", .str "remove"), ("tag", .str tag)]) }

/-- `revoke`, with the cleanup commands it queues. `current` says that the
revision is the expected one. -/
def Share.revoke (share : Share) (current deleteInbounds available : Bool) :
    Except (Nat × String) (List Request × Share) :=
  if share.revoked then .error (404, "server_share_not_found")
  else if !current then .error (409, "server_share_conflict")
  else
    let tags := if deleteInbounds then share.ownedTags.dedup.insertionSort (· ≤ ·) else []
    if !tags.isEmpty && !available then .error (409, "server_share_conflict")
    else .ok (tags.map removal, { share with revoked := true, ownedTags := [] })

/-- A request with the token of the share, or the poll of one of its commands. -/
inductive Event where
  | request (payload : Request) (available : Bool) (outcome : Outcome)
  | poll (place : Nat) (terminal : Bool)

/-- A refused request changes nothing. -/
def Share.step (share : Share) : Event → Share
  | .request payload available outcome => (share.createSharedCommand payload available outcome).toOption.getD share
  | .poll place terminal => share.commandRead place terminal

/-- The command created the inbound of the tag. -/
def Link.Adds (link : Link) (tag : String) : Prop :=
  link.action = .add ∧ link.outcome = .succeeded ∧ inboundTag link.payload link.action = some tag

def Link.Removes (link : Link) (tag : String) : Prop :=
  (link.action = .remove ∨ link.action = .delete) ∧ link.outcome = .succeeded ∧
    inboundTag link.payload link.action = some tag

/-- A successful add created the inbound, and no later successful removal deleted it. -/
def Left (links : List Link) (tag : String) : Prop :=
  ∃ before link after, links = before ++ link :: after ∧ link.Adds tag ∧ ∀ later ∈ after, ¬ later.Removes tag

/-- The steps at which the ledger follows the Agent. An add or a removal has
its tag where the Agent reads it, and the poll of an add that has failed or of
a removal that has succeeded finds no inbound of the tag left by the commands so far. -/
def Share.Follows (share : Share) : Event → Prop
  | .request payload _ _ =>
    let (action, tag) := tagOperation payload
    action ≠ .other → tag ≠ "" ∧ inboundTag payload action = some tag
  | .poll place terminal => terminal = true → ∀ link, share.links[place]? = some link → place ∉ share.reconciled →
    link.drops = true → ¬ Left share.links link.tag

def Share.run (share : Share) (events : List Event) : Share := events.foldl Share.step share

def Share.Faithful (share : Share) : List Event → Prop
  | [] => True
  | event :: events => share.Follows event ∧ (share.step event).Faithful events

variable {links : List Link} {link : Link} {tag : String}

theorem left_snoc : Left (links ++ [link]) tag ↔ link.Adds tag ∨ Left links tag ∧ ¬ link.Removes tag := by
  constructor
  · rintro ⟨before, added, after, same, adds, none⟩
    rcases eq_nil_or_concat after with rfl | ⟨after, last, rfl⟩
    · obtain ⟨-, same⟩ := append_inj' same rfl
      cases same
      exact .inl adds
    · rw [concat_eq_append, ← cons_append, ← append_assoc] at same
      obtain ⟨rfl, last'⟩ := append_inj' same rfl
      cases last'
      exact .inr ⟨⟨before, added, after, rfl, adds, fun later here => none later (by simp [here])⟩,
        none link (by simp)⟩
  · rintro (adds | ⟨⟨before, added, after, rfl, adds, none⟩, kept⟩)
    · exact ⟨links, link, [], rfl, adds, nofun⟩
    · refine ⟨before, added, after ++ [link], by simp, adds, fun later here => ?_⟩
      rcases List.mem_append.mp here with old | new
      · exact none later old
      · cases List.mem_singleton.mp new
        exact kept

variable {share next : Share}

/-- Every tag left by the commands is owned, and an owned tag that is not left
waits for a poll that drops it. Each command has its tag where the Agent reads it. -/
structure Share.Sound (share : Share) : Prop where
  named : ∀ link ∈ share.links, link.action ≠ .other → link.tag ≠ "" ∧
    inboundTag link.payload link.action = some link.tag
  owned : ∀ tag, Left share.links tag → tag ∈ share.ownedTags
  waits : ∀ tag ∈ share.ownedTags, Left share.links tag ∨
    ∃ place link, share.links[place]? = some link ∧ place ∉ share.reconciled ∧ link.drops = true ∧ link.tag = tag
  known : ∀ place ∈ share.reconciled, place < share.links.length

theorem Link.adds_or_drops (named : link.tag ≠ "" ∧ inboundTag link.payload link.action = some link.tag)
    (adding : link.action = .add) : link.Adds link.tag ∨ link.drops = true := by
  by_cases done : link.outcome = .succeeded
  · exact .inl ⟨adding, done, named.2⟩
  · exact .inr (by simp [drops, adding, done, named.1])

theorem Link.Removes.drops (removes : link.Removes tag)
    (named : link.action ≠ .other → link.tag ≠ "" ∧ inboundTag link.payload link.action = some link.tag) :
    link.drops = true ∧ link.tag = tag := by
  obtain ⟨action | action, done, about⟩ := removes <;>
  · obtain ⟨given, same⟩ := named (by simp [action])
    exact ⟨by simp [Link.drops, action, done, given], Option.some.inj (same.symm.trans about)⟩

theorem mem_record : tag ∈ (share.record link).ownedTags ↔
    tag ∈ share.ownedTags ∨ (link.action = .add ∧ link.tag ≠ "") ∧ link.tag = tag := by
  simp only [Share.record]
  split <;> rename_i fresh
  · rw [mem_append, mem_singleton]
    exact or_congr_right ⟨fun same => ⟨⟨fresh.1, fresh.2.1⟩, same.symm⟩, fun added => added.2.symm⟩
  · refine ⟨.inl, fun owned => owned.elim id fun ⟨adding, same⟩ => ?_⟩
    by_contra missing
    exact fresh ⟨adding.1, adding.2, same ▸ missing⟩

theorem Share.Sound.record (sound : share.Sound)
    (named : link.action ≠ .other → link.tag ≠ "" ∧ inboundTag link.payload link.action = some link.tag) :
    (share.record link).Sound := by
  have fresh : share.links.length ∉ share.reconciled := fun here => Nat.lt_irrefl _ (sound.known _ here)
  have last : (share.links ++ [link])[share.links.length]? = some link := by simp
  refine ⟨fun other here => ?_, fun tag left => mem_record.mpr ?_, fun tag owned => ?_, fun place here => ?_⟩
  · rcases List.mem_append.mp here with old | new
    · exact sound.named other old
    · cases List.mem_singleton.mp new
      exact named
  · rcases left_snoc.mp left with adds | ⟨old, _⟩
    · obtain ⟨given, same⟩ := named (by simp [adds.1])
      exact .inr ⟨⟨adds.1, given⟩, Option.some.inj (same.symm.trans adds.2.2)⟩
    · exact .inl (sound.owned tag old)
  · -- The command itself drops the tag, or it leaves what was there.
    by_cases drops : link.drops = true ∧ link.tag = tag
    · exact .inr ⟨_, link, last, fresh, drops.1, drops.2⟩
    rcases mem_record.mp owned with old | ⟨⟨adding, given⟩, rfl⟩
    · rcases sound.waits tag old with left | ⟨place, other, here, rest⟩
      · exact .inl (left_snoc.mpr (.inr ⟨left, fun removes => drops (removes.drops named)⟩))
      · refine .inr ⟨place, other, ?_, rest⟩
        rw [Share.record, List.getElem?_append_left (List.getElem?_eq_some_iff.mp here).1]
        exact here
    · refine .inl (left_snoc.mpr (.inl ((link.adds_or_drops (named (by simp [adding])) adding).resolve_right ?_)))
      exact fun drop => drops ⟨drop, rfl⟩
  · simpa [Share.record] using Nat.lt_succ_of_lt (sound.known place here)

theorem Share.Sound.commandRead {place : Nat} {terminal : Bool} (sound : share.Sound)
    (follows : share.Follows (.poll place terminal)) : (share.commandRead place terminal).Sound := by
  unfold Share.commandRead
  split
  · exact sound
  rename_i link here
  split
  · rename_i first
    refine ⟨sound.named, fun tag left => ?_, fun tag owned => ?_, fun other known => ?_⟩
    · split
      · rename_i drops
        refine List.mem_filter.mpr ⟨sound.owned tag left, decide_eq_true fun same => ?_⟩
        exact follows first.1 link here first.2 drops (same ▸ left)
      · exact sound.owned tag left
    · have owned' : tag ∈ share.ownedTags ∧ ¬ (link.drops = true ∧ link.tag = tag) := by
        split at owned
        · obtain ⟨old, other⟩ := List.mem_filter.mp owned
          exact ⟨old, fun drops => of_decide_eq_true other drops.2.symm⟩
        · rename_i keeps
          exact ⟨owned, fun drops => keeps drops.1⟩
      refine (sound.waits tag owned'.1).imp_right ?_
      rintro ⟨place', other, here', waiting, drops, same⟩
      refine ⟨place', other, here', fun known => ?_, drops, same⟩
      rcases List.mem_cons.mp known with rfl | old
      · cases here.symm.trans here'
        exact owned'.2 ⟨drops, same⟩
      · exact waiting old
    · rcases List.mem_cons.mp known with rfl | old
      · exact (List.getElem?_eq_some_iff.mp here).1
      · exact sound.known other old
  · exact sound

theorem Share.Sound.step {event : Event} (sound : share.Sound) (follows : share.Follows event) :
    (share.step event).Sound := by
  cases event with
  | poll place terminal => exact sound.commandRead follows
  | request payload available outcome =>
    simp only [Share.step, Share.createSharedCommand]
    split
    · exact sound
    split
    · exact sound
    split
    · exact sound
    exact sound.record follows

theorem Share.Sound.run {events : List Event} (sound : share.Sound) (faithful : share.Faithful events) :
    (share.run events).Sound := by
  induction events generalizing share with
  | nil => exact sound
  | cons event events ih => exact ih (sound.step faithful.1) faithful.2

/-- When every command of a share has ended and was polled, the share owns the tags of the
inbounds its commands left behind, and its revocation queues one removal for each of them. -/
theorem Share.run_ledger (share : Share) (events : List Event) (unused : share.links = [] ∧ share.ownedTags = [] ∧
    share.reconciled = []) (faithful : share.Faithful events)
    (polled : ∀ place < (share.run events).links.length, place ∈ (share.run events).reconciled) :
    (∀ tag, tag ∈ (share.run events).ownedTags ↔ Left (share.run events).links tag) ∧
    ∀ commands after, (share.run events).revoke true true true = .ok (commands, after) →
      ∃ tags : List String, commands = tags.map removal ∧ tags.Nodup ∧ ∀ tag, tag ∈ tags ↔
        Left (share.run events).links tag := by
  have start : share.Sound := by
    obtain ⟨links, tags, none⟩ := unused
    refine ⟨?_, ?_, ?_, ?_⟩ <;> simp [links, tags, none, Left]
  have sound := start.run faithful
  have exact : ∀ tag, tag ∈ (share.run events).ownedTags ↔ Left (share.run events).links tag := by
    refine fun tag => ⟨fun owned => (sound.waits tag owned).resolve_right ?_, sound.owned tag⟩
    rintro ⟨place, link, here, waiting, -⟩
    exact waiting (polled place (List.getElem?_eq_some_iff.mp here).1)
  refine ⟨exact, fun commands after revoked => ?_⟩
  unfold Share.revoke at revoked
  split at revoked
  · cases revoked
  · rw [if_neg (by decide), if_pos rfl, if_neg (by simp)] at revoked
    cases revoked
    refine ⟨_, rfl, ?_, fun tag => ?_⟩
    · exact (perm_insertionSort _ _).nodup_iff.mpr (nodup_dedup _)
    · rw [mem_insertionSort, mem_dedup, exact]

def addTenant : Request :=
  { method := "POST", path := inboundsPath
    body := some (.obj [("action", .str "add"), ("inbound", .obj [("tag", .str "tenant-a")])]) }

theorem tagOperation_addTenant : tagOperation addTenant = (.add, "tenant-a") := by decide +kernel

theorem step_addTenant {share : Share} (active : share.revoked = false) (outcome : Outcome) :
    share.step (.request addTenant true outcome) = share.record ⟨addTenant, .add, "tenant-a", outcome⟩ := by
  have allowed : share.scope addTenant = true := by
    rw [Share.scope, if_neg (by decide), if_neg (by decide), if_neg (by decide), tagOperation_addTenant]
    simp
  simp [Share.step, Share.createSharedCommand, active, allowed, tagOperation_addTenant, Except.toOption]

/-- The first add succeeds and is polled. -/
theorem added_once :
    let share := Share.run {} [.request addTenant true .succeeded, .poll 0 true]
    (∀ tag, tag ∈ share.ownedTags ↔ Left share.links tag) ∧
    ∀ commands after, share.revoke true true true = .ok (commands, after) →
      ∃ tags : List String, commands = tags.map removal ∧ tags.Nodup ∧ ∀ tag, tag ∈ tags ↔
        Left share.links tag := by
  have first := @step_addTenant {} rfl .succeeded
  refine Share.run_ledger {} _ ⟨rfl, rfl, rfl⟩ ⟨?_, ?_, trivial⟩ fun place known => ?_
  · simp only [Share.Follows, tagOperation_addTenant]
    exact fun _ => ⟨by decide, rfl⟩
  · rw [first]
    rintro - link here - drops
    cases List.mem_singleton.mp (mem_of_getElem? here)
    cases drops
  · simp only [Share.run, foldl_cons, foldl_nil] at known ⊢
    rw [first] at known ⊢
    obtain rfl : place = 0 := Nat.lt_one_iff.mp known
    exact mem_singleton_self 0

/-- An inbound that is added twice: the second add fails, as the tag exists,
and its poll takes the tag from the share. -/
theorem added_twice :
    let share := Share.run {} [.request addTenant true .succeeded, .request addTenant true .failed, .poll 0 true,
      .poll 1 true]
    Left share.links "tenant-a" ∧ share.reconciled = [1, 0] ∧ share.links.length = 2 ∧ share.ownedTags = [] := by
  simp only [Share.run, foldl_cons, foldl_nil]
  have first := @step_addTenant {} rfl .succeeded
  rw [first, step_addTenant rfl]
  refine ⟨⟨[], _, [_], rfl, ⟨rfl, rfl, rfl⟩, fun later here removes => ?_⟩, rfl, rfl, rfl⟩
  cases List.mem_singleton.mp here
  cases removes.2.1

end OpenNode.ServerSharing
