import OpenNode.AgentJournal

namespace OpenNode.Agent

open List

variable {Body : Type}

section Journals

variable {journal : CommandJournal Body} {requestId : String} {row : Row Body}

theorem find_row (found : (journal.find? fun row => row.requestId == requestId) = some row) :
    row ∈ journal ∧ row.requestId = requestId :=
  ⟨mem_of_find?_eq_some found, by simpa using List.find?_some found⟩

theorem find_row_none (missing : (journal.find? fun row => row.requestId == requestId) = none) :
    ∀ row ∈ journal, row.requestId ≠ requestId := by
  intro row member
  simpa using List.find?_eq_none.mp missing row member

theorem find_row_self (once : (journal.map Row.requestId).Nodup) (member : row ∈ journal) :
    (journal.find? fun other => other.requestId == row.requestId) = some row := by
  cases found : journal.find? fun other => other.requestId == row.requestId with
  | none => exact absurd rfl (find_row_none found row member)
  | some other =>
    obtain ⟨atOther, same⟩ := find_row found
    exact congrArg some (inj_on_of_nodup_map once atOther member same)

variable {r : Result Body}

theorem mem_pendingResults :
    r ∈ journal.pendingResults ↔ ∃ row ∈ journal, row.result = some r ∧ row.acknowledged = false := by
  simp only [CommandJournal.pendingResults, mem_filterMap, mem_mergeSort, mem_filter,
    Bool.and_eq_true, Bool.not_eq_true']
  constructor
  · rintro ⟨row, ⟨member, _, unacknowledged⟩, result⟩
    exact ⟨row, member, result, unacknowledged⟩
  · rintro ⟨row, member, result, unacknowledged⟩
    exact ⟨row, ⟨member, by rw [result]; rfl, unacknowledged⟩, result⟩

theorem mem_recorded {s : AgentState Body} :
    r ∈ s.recorded requestId ↔ ∃ row ∈ s.journal, row.requestId = requestId ∧ row.result = some r := by
  simp only [AgentState.recorded, mem_filterMap, mem_filter, beq_iff_eq, and_assoc]

theorem begin_cases (fingerprint : Content Body → String) (journal : CommandJournal Body) (c : RPCCommand Body)
    (resume : Bool) (now : Nat) :
    (∃ row ∈ journal, row.requestId = c.requestId ∧
      ((∃ reply, reply.requestId = c.requestId ∧ journal.begin fingerprint c resume now = (journal, some reply)) ∨
        (∃ reply, row.result = some reply ∧ journal.begin fingerprint c resume now = (journal, some reply)) ∨
        resume = true ∧ row.fingerprint = fingerprint c.content ∧
          journal.begin fingerprint c resume now = (journal, none))) ∨
    (∀ row ∈ journal, row.requestId ≠ c.requestId) ∧ journal.begin fingerprint c resume now =
        (journal ++ [{ requestId := c.requestId, fingerprint := fingerprint c.content, createdAt := now }],
          none) := by
  unfold CommandJournal.begin
  cases found : journal.find? fun row => row.requestId == c.requestId with
  | none => exact .inr ⟨find_row_none found, rfl⟩
  | some row =>
    obtain ⟨member, same⟩ := find_row found
    refine .inl ⟨row, member, same, ?_⟩
    dsimp only
    by_cases other : row.fingerprint ≠ fingerprint c.content
    · rw [if_pos other]
      exact .inl ⟨_, rfl, rfl⟩
    · rw [if_neg other]
      cases result : row.result with
      | some reply => exact .inr (.inl ⟨reply, rfl, rfl⟩)
      | none =>
        cases resume with
        | true => exact .inr (.inr ⟨rfl, not_not.mp other, rfl⟩)
        | false => exact .inl ⟨_, rfl, rfl⟩

theorem begin_of_row {fingerprint : Content Body → String} (once : (journal.map Row.requestId).Nodup)
    (member : row ∈ journal) {c : RPCCommand Body} (same : c.requestId = row.requestId) (resume : Bool)
    (now : Nat) :
    (fingerprint c.content ≠ row.fingerprint →
      journal.begin fingerprint c resume now = (journal, some (conflict c.requestId))) ∧
    (fingerprint c.content = row.fingerprint → ∀ r, row.result = some r →
      journal.begin fingerprint c resume now = (journal, some r)) := by
  unfold CommandJournal.begin
  rw [same, find_row_self once member]
  dsimp only
  constructor
  · intro other
    rw [if_pos other.symm]
  · intro equal r result
    rw [if_neg (not_not.mpr equal.symm), result]

end Journals

theorem Outcome.result_requestId {c : RPCCommand Body} {outcome : Outcome Body} {r : Result Body}
    (built : outcome.result c = some r) : r.requestId = c.requestId := by
  cases outcome <;> cases built <;> rfl

namespace AgentState

/-- The contents of the commands that were begun. -/
def contents (s : AgentState Body) : Set (Content Body) :=
  {content | ∃ c ∈ s.begun, c.content = content}

/-- What holds of an Agent in every run. A command that cannot be resumed is
alone with its request: while it runs nothing was answered for the request, and
its result is recorded before any acknowledgement of it. -/
structure Sound (fingerprint : Content Body → String) (s : AgentState Body) : Prop where
  idsOnce : (s.journal.map Row.requestId).Nodup
  rows : ∀ row ∈ s.journal, ∃ c ∈ s.begun, c.requestId = row.requestId ∧ fingerprint c.content = row.fingerprint
  begun : ∀ c ∈ s.begun, ∃ row ∈ s.journal, row.requestId = c.requestId ∧ row.fingerprint = fingerprint c.content
  entered : ∀ c ∈ s.entered, c ∈ s.begun
  running : ∀ c inside, s.execution = some (c, inside) → c ∈ s.begun
  results : ∀ row ∈ s.journal, ∀ r, row.result = some r → r.requestId = row.requestId
  replies : ∀ r ∈ s.replies, ∃ row ∈ s.journal, row.requestId = r.requestId
  sockets : s.socket = true → s.everSocket = true
  kept : ∀ c ∈ s.begun, c.resumable s.everSocket = false → ∀ row ∈ s.journal, row.requestId = c.requestId →
    ∀ r, row.result = some r → row.acknowledged = true → r ∈ s.acked
  alone : ∀ c inside, s.execution = some (c, inside) → c.resumable s.everSocket = false →
    (∀ r ∈ s.replies, r.requestId ≠ c.requestId) ∧
      (∀ row ∈ s.journal, row.requestId = c.requestId → row.result = none ∧ row.acknowledged = false) ∧
      (inside = false → ∀ e ∈ s.entered, e.requestId ≠ c.requestId)
  once : ∀ c ∈ s.begun, c.resumable s.everSocket = false →
    s.entered.countP (fun e => e.requestId == c.requestId) ≤ 1

variable {fingerprint : Content Body → String} {s t : AgentState Body}

theorem Sound.new (socket : Bool) : (new socket : AgentState Body).Sound fingerprint where
  idsOnce := nodup_nil
  rows := nofun
  begun := nofun
  entered := nofun
  running := nofun
  results := nofun
  replies := nofun
  sockets := id
  kept := nofun
  alone := nofun
  once := nofun

variable {c : RPCCommand Body}

section

variable (sound : s.Sound fingerprint)
include sound

theorem Sound.same_content (injective : Set.InjOn fingerprint s.contents)
    {c' : RPCCommand Body} (begun : c ∈ s.begun) (begun' : c' ∈ s.begun) (same : c.requestId = c'.requestId) :
    c.content = c'.content := by
  obtain ⟨row, member, id, content⟩ := sound.begun c begun
  obtain ⟨row', member', id', content'⟩ := sound.begun c' begun'
  obtain rfl := inj_on_of_nodup_map sound.idsOnce member member' (id.trans (same.trans id'.symm))
  exact injective ⟨c, begun, rfl⟩ ⟨c', begun', rfl⟩ (content.symm.trans content')

theorem Sound.resumable_same (injective : Set.InjOn fingerprint s.contents)
    {c' : RPCCommand Body} (begun : c ∈ s.begun) (begun' : c' ∈ s.begun) (same : c.requestId = c'.requestId)
    (socket : Bool) : c.resumable socket = c'.resumable socket :=
  RPCCommand.resumable_content (sound.same_content injective begun begun' same) socket

theorem Sound.reply (idle : s.execution = none) {replies : List (Result Body)}
    (known : ∀ r ∈ replies, ∃ row ∈ s.journal, row.requestId = r.requestId) :
    ({ s with replies := s.replies ++ replies } : AgentState Body).Sound fingerprint where
  idsOnce := sound.idsOnce
  rows := sound.rows
  begun := sound.begun
  entered := sound.entered
  running := sound.running
  results := sound.results
  replies r member := (List.mem_append.mp member).elim (sound.replies r) (known r)
  sockets := sound.sockets
  kept := sound.kept
  alone c inside running := by
    rw [show s.execution = some (c, inside) from running] at idle
    cases idle
  once := sound.once

theorem Sound.resend :
    ({ s with replies := s.replies ++ s.journal.pendingResults } : AgentState Body).Sound fingerprint where
  idsOnce := sound.idsOnce
  rows := sound.rows
  begun := sound.begun
  entered := sound.entered
  running := sound.running
  results := sound.results
  replies r member := by
    rcases List.mem_append.mp member with old | pending
    · exact sound.replies r old
    · obtain ⟨row, atRow, result, _⟩ := mem_pendingResults.mp pending
      exact ⟨row, atRow, (sound.results row atRow r result).symm⟩
  sockets := sound.sockets
  kept := sound.kept
  alone c inside running only := by
    obtain ⟨silent, blank, outside⟩ := sound.alone c inside running only
    refine ⟨fun r member same => ?_, blank, outside⟩
    rcases List.mem_append.mp member with old | pending
    · exact silent r old same
    · obtain ⟨row, atRow, result, _⟩ := mem_pendingResults.mp pending
      have empty := (blank row atRow ((sound.results row atRow r result).symm.trans same)).1
      rw [result] at empty
      cases empty
  once := sound.once

theorem Sound.restart (socket : Bool) :
    ({ s with execution := none, socket := socket, everSocket := s.everSocket || socket } : AgentState Body).Sound
      fingerprint := by
  have before : ∀ c : RPCCommand Body, c.resumable (s.everSocket || socket) = false →
      c.resumable s.everSocket = false := by
    intro c only
    by_contra resumed
    have grown : s.everSocket = true → (s.everSocket || socket) = true := by
      intro set
      rw [set, Bool.true_or]
    have later := RPCCommand.resumable_mono grown (by simpa using resumed)
    rw [only] at later
    cases later
  exact
    { idsOnce := sound.idsOnce
      rows := sound.rows
      begun := sound.begun
      entered := sound.entered
      running := nofun
      results := sound.results
      replies := sound.replies
      sockets := fun set => by rw [show socket = true from set, Bool.or_true]
      kept := fun c member only => sound.kept c member (before c only)
      alone := nofun
      once := fun c member only => sound.once c member (before c only) }

theorem Sound.insert (absent : ∀ row ∈ s.journal, row.requestId ≠ c.requestId) (now : Nat) : ({ s with
        journal :=
          s.journal ++ [{ requestId := c.requestId, fingerprint := fingerprint c.content, createdAt := now }]
        execution := some (c, false)
        begun := s.begun ++ [c] } : AgentState Body).Sound fingerprint := by
  have fresh : ∀ c' ∈ s.begun, c'.requestId ≠ c.requestId := by
    intro c' begun same
    obtain ⟨row, member, id, _⟩ := sound.begun c' begun
    exact absent row member (id.trans same)
  have unanswered : ∀ r ∈ s.replies, r.requestId ≠ c.requestId := by
    intro r member same
    obtain ⟨row, atRow, id⟩ := sound.replies r member
    exact absent row atRow (id.trans same)
  have outside : ∀ e ∈ s.entered, e.requestId ≠ c.requestId := fun e member => fresh e (sound.entered e member)
  refine
    { idsOnce := ?_
      rows := fun row member => ?_
      begun := fun c' member => ?_
      entered := fun e member => mem_append_left _ (sound.entered e member)
      running := fun c' inside running => ?_
      results := fun row member r result => ?_
      replies := fun r member => ?_
      sockets := sound.sockets
      kept := fun c' member only row atRow same r result acknowledged => ?_
      alone := fun c' inside running only => ?_
      once := fun c' member only => ?_ }
  · rw [map_append, map_singleton, ← concat_eq_append]
    refine sound.idsOnce.concat fun member => ?_
    obtain ⟨row, atRow, same⟩ := List.mem_map.mp member
    exact absent row atRow same
  · rcases List.mem_append.mp member with old | new
    · obtain ⟨c', begun, same⟩ := sound.rows row old
      exact ⟨c', mem_append_left _ begun, same⟩
    · cases List.mem_singleton.mp new
      exact ⟨c, mem_append_right _ mem_cons_self, rfl, rfl⟩
  · rcases List.mem_append.mp member with old | new
    · obtain ⟨row, atRow, same⟩ := sound.begun c' old
      exact ⟨row, mem_append_left _ atRow, same⟩
    · cases List.mem_singleton.mp new
      exact ⟨_, mem_append_right _ mem_cons_self, rfl, rfl⟩
  · cases running
    exact mem_append_right _ mem_cons_self
  · rcases List.mem_append.mp member with old | new
    · exact sound.results row old r result
    · cases List.mem_singleton.mp new
      cases result
  · obtain ⟨row, atRow, same⟩ := sound.replies r member
    exact ⟨row, mem_append_left _ atRow, same⟩
  · rcases List.mem_append.mp atRow with old | new
    · rcases List.mem_append.mp member with before | this
      · exact sound.kept c' before only row old same r result acknowledged
      · cases List.mem_singleton.mp this
        exact absurd same (absent row old)
    · cases List.mem_singleton.mp new
      cases result
  · cases running
    refine ⟨unanswered, fun row atRow same => ?_, fun _ => outside⟩
    rcases List.mem_append.mp atRow with old | new
    · exact absurd same (absent row old)
    · cases List.mem_singleton.mp new
      exact ⟨rfl, rfl⟩
  · rcases List.mem_append.mp member with before | this
    · exact sound.once c' before only
    · cases List.mem_singleton.mp this
      have none : s.entered.countP (fun e => e.requestId == c.requestId) = 0 := by
        rw [countP_eq_zero]
        intro e member
        simpa using outside e member
      show s.entered.countP _ ≤ 1
      omega

end

variable {row : Row Body}

theorem Sound.resume (sound : s.Sound fingerprint) (resumed : c.resumable s.socket = true)
    (member : row ∈ s.journal)
    (same : row.requestId = c.requestId) (content : row.fingerprint = fingerprint c.content) :
    ({ s with execution := some (c, false), begun := s.begun ++ [c] } : AgentState Body).Sound fingerprint := by
  have resumed : c.resumable s.everSocket = true := RPCCommand.resumable_mono sound.sockets resumed
  refine
    { idsOnce := sound.idsOnce
      rows := fun row member => ?_
      begun := fun c' member' => ?_
      entered := fun e member => mem_append_left _ (sound.entered e member)
      running := fun c' inside running => ?_
      results := sound.results
      replies := sound.replies
      sockets := sound.sockets
      kept := fun c' member' only => ?_
      alone := fun c' inside running only => ?_
      once := fun c' member' only => ?_ }
  · obtain ⟨c', begun, same⟩ := sound.rows row member
    exact ⟨c', mem_append_left _ begun, same⟩
  · rcases List.mem_append.mp member' with old | new
    · exact sound.begun c' old
    · cases List.mem_singleton.mp new
      exact ⟨row, member, same, content⟩
  · cases running
    exact mem_append_right _ mem_cons_self
  · rcases List.mem_append.mp member' with old | new
    · exact sound.kept c' old only
    · cases List.mem_singleton.mp new
      rw [resumed] at only
      cases only
  · cases running
    rw [resumed] at only
    cases only
  · rcases List.mem_append.mp member' with old | new
    · exact sound.once c' old only
    · cases List.mem_singleton.mp new
      rw [resumed] at only
      cases only

theorem Sound.enter (sound : s.Sound fingerprint) (injective : Set.InjOn fingerprint s.contents)
    (running : s.execution = some (c, false)) :
    ({ s with execution := some (c, true), entered := s.entered ++ [c] } : AgentState Body).Sound fingerprint := by
  have begun := sound.running c false running
  refine
    { idsOnce := sound.idsOnce
      rows := sound.rows
      begun := sound.begun
      entered := fun e member => ?_
      running := fun c' inside now => ?_
      results := sound.results
      replies := sound.replies
      sockets := sound.sockets
      kept := sound.kept
      alone := fun c' inside now only => ?_
      once := fun c' member only => ?_ }
  · rcases List.mem_append.mp member with old | new
    · exact sound.entered e old
    · cases List.mem_singleton.mp new
      exact begun
  · cases now
    exact begun
  · cases now
    obtain ⟨silent, blank, _⟩ := sound.alone c false running only
    exact ⟨silent, blank, nofun⟩
  · show (s.entered ++ [c]).countP _ ≤ 1
    rw [countP_append, countP_singleton]
    have before := sound.once c' member only
    split
    · rename_i same
      have same : c.requestId = c'.requestId := by simpa using same
      have outside := (sound.alone c false running
        ((sound.resumable_same injective begun member same _).trans only)).2.2 rfl
      have none : s.entered.countP (fun e => e.requestId == c'.requestId) = 0 := by
        rw [countP_eq_zero]
        intro e atE
        simpa [← same] using outside e atE
      omega
    · omega

/-- An update of the rows that leaves their requests alone. -/
structure Updates (s t : AgentState Body) (f : Row Body → Row Body) : Prop where
  journal : t.journal = s.journal.map f
  requestId : ∀ row, (f row).requestId = row.requestId
  fingerprint : ∀ row, (f row).fingerprint = row.fingerprint
  begun : t.begun = s.begun
  entered : t.entered = s.entered
  sockets : t.socket = s.socket ∧ t.everSocket = s.everSocket

theorem Sound.update (sound : s.Sound fingerprint) {f : Row Body → Row Body} (updates : Updates s t f)
    (running : ∀ c inside, t.execution = some (c, inside) → s.execution = some (c, inside))
    (results : ∀ row ∈ s.journal, ∀ r, (f row).result = some r → r.requestId = row.requestId)
    (replies : ∀ r ∈ t.replies, ∃ row ∈ s.journal, row.requestId = r.requestId)
    (kept : ∀ c ∈ s.begun, c.resumable s.everSocket = false → ∀ row ∈ s.journal, row.requestId = c.requestId →
      ∀ r, (f row).result = some r → (f row).acknowledged = true → r ∈ t.acked)
    (alone : ∀ c inside, t.execution = some (c, inside) → c.resumable s.everSocket = false →
      (∀ r ∈ t.replies, r.requestId ≠ c.requestId) ∧ ∀ row ∈ s.journal, row.requestId = c.requestId →
        (f row).result = none ∧ (f row).acknowledged = false) : t.Sound fingerprint where
  idsOnce := by
    rw [updates.journal, map_map]
    refine (map_congr_left fun row _ => ?_).symm ▸ sound.idsOnce
    exact updates.requestId row
  rows row member := by
    rw [updates.journal] at member
    obtain ⟨old, atOld, rfl⟩ := List.mem_map.mp member
    obtain ⟨c, begun, same, content⟩ := sound.rows old atOld
    exact ⟨c, updates.begun ▸ begun, same.trans (updates.requestId old).symm,
      content.trans (updates.fingerprint old).symm⟩
  begun c member := by
    rw [updates.begun] at member
    obtain ⟨row, atRow, same, content⟩ := sound.begun c member
    exact ⟨f row, updates.journal ▸ mem_map_of_mem atRow, (updates.requestId row).trans same,
      (updates.fingerprint row).trans content⟩
  entered e member := by
    rw [updates.begun]
    exact sound.entered e (updates.entered ▸ member)
  running c inside now := updates.begun ▸ sound.running c inside (running c inside now)
  results row member r result := by
    rw [updates.journal] at member
    obtain ⟨old, atOld, rfl⟩ := List.mem_map.mp member
    exact (results old atOld r result).trans (updates.requestId old).symm
  replies r member := by
    obtain ⟨row, atRow, same⟩ := replies r member
    exact ⟨f row, updates.journal ▸ mem_map_of_mem atRow, (updates.requestId row).trans same⟩
  sockets set := by
    rw [updates.sockets.2]
    exact sound.sockets (updates.sockets.1 ▸ set)
  kept c member only row atRow same r result acknowledged := by
    rw [updates.journal] at atRow
    obtain ⟨old, atOld, rfl⟩ := List.mem_map.mp atRow
    rw [updates.begun] at member
    rw [updates.sockets.2] at only
    exact kept c member only old atOld ((updates.requestId old).symm.trans same) r result acknowledged
  alone c inside now only := by
    rw [updates.sockets.2] at only
    obtain ⟨silent, blank⟩ := alone c inside now only
    refine ⟨silent, fun row atRow same => ?_, fun first => ?_⟩
    · rw [updates.journal] at atRow
      obtain ⟨old, atOld, rfl⟩ := List.mem_map.mp atRow
      exact blank old atOld ((updates.requestId old).symm.trans same)
    · rw [updates.entered]
      exact (sound.alone c inside (running c inside now) only).2.2 first
  once c member only := by
    rw [updates.entered]
    rw [updates.begun] at member
    rw [updates.sockets.2] at only
    exact sound.once c member only

variable {result : Result Body}

theorem Sound.finish (sound : s.Sound fingerprint) (injective : Set.InjOn fingerprint s.contents) {inside : Bool}
    (running : s.execution = some (c, inside)) (same : result.requestId = c.requestId) :
    ({ s with
        journal := s.journal.finish result
        execution := none
        replies := s.replies ++ [result] } : AgentState Body).Sound fingerprint := by
  have begun := sound.running c inside running
  have updates : Updates s { s with
      journal := s.journal.finish result, execution := none, replies := s.replies ++ [result] }
      (fun row => if row.requestId = result.requestId ∧ row.result = none then { row with result := some result }
        else row) :=
    ⟨rfl, fun row => by split <;> rfl, fun row => by split <;> rfl, rfl, rfl, rfl, rfl⟩
  refine sound.update updates nofun ?_ ?_ ?_ nofun
  · intro row atRow r recorded
    split at recorded
    · rename_i blank
      cases recorded
      exact blank.1.symm
    · exact sound.results row atRow r recorded
  · intro r member
    rcases List.mem_append.mp member with old | new
    · exact sound.replies r old
    · cases List.mem_singleton.mp new
      obtain ⟨row, atRow, id, _⟩ := sound.begun c begun
      exact ⟨row, atRow, id.trans same.symm⟩
  · intro c' member only row atRow id r recorded acknowledged
    split at recorded
    · rename_i blank
      have one : c.requestId = c'.requestId := same.symm.trans (blank.1.symm.trans id)
      have only := (sound.resumable_same injective begun member one _).trans only
      have unmarked := ((sound.alone c inside running only).2.1 row atRow (blank.1.trans same)).2
      rw [if_pos blank] at acknowledged
      rw [show row.acknowledged = true from acknowledged] at unmarked
      cases unmarked
    · rename_i taken
      rw [if_neg taken] at acknowledged
      exact sound.kept c' member only row atRow id r recorded acknowledged

theorem Sound.acknowledge (sound : s.Sound fingerprint) {requestId : String}
    (answered : ∃ r ∈ s.replies, r.requestId = requestId) :
    ({ s with journal := s.journal.acknowledge requestId, acked := s.acked ++ s.recorded requestId } :
      AgentState Body).Sound fingerprint := by
  have updates : Updates s { s with
      journal := s.journal.acknowledge requestId, acked := s.acked ++ s.recorded requestId }
      (fun row => if row.requestId = requestId then { row with acknowledged := true } else row) :=
    ⟨rfl, fun row => by split <;> rfl, fun row => by split <;> rfl, rfl, rfl, rfl, rfl⟩
  have result : ∀ row : Row Body,
      (if row.requestId = requestId then { row with acknowledged := true } else row).result = row.result :=
    fun row => by split <;> rfl
  refine sound.update updates (fun _ _ => id) ?_ sound.replies ?_ ?_
  · intro row atRow r recorded
    rw [result] at recorded
    exact sound.results row atRow r recorded
  · intro c member only row atRow same r recorded acknowledged
    rw [result] at recorded
    by_cases here : row.requestId = requestId
    · exact mem_append_right _ (mem_recorded.mpr ⟨row, atRow, here, recorded⟩)
    · rw [if_neg here] at acknowledged
      exact mem_append_left _ (sound.kept c member only row atRow same r recorded acknowledged)
  · intro c inside running only
    obtain ⟨silent, blank, _⟩ := sound.alone c inside running only
    obtain ⟨r, member, rfl⟩ := answered
    refine ⟨silent, fun row atRow same => ?_⟩
    rw [if_neg fun here => silent r member (here.symm.trans same)]
    exact blank row atRow same

theorem Sound.report (sound : s.Sound fingerprint) (injective : Set.InjOn fingerprint s.contents)
    (lifecycle : c.isLifecycle = true) (configured : s.everSocket = true)
    (submitted : ∃ e ∈ s.entered, e.requestId = c.requestId ∧ e.content = c.content)
    (same : result.requestId = c.requestId) (acknowledged : Bool) (acked : List (Result Body))
    (more : s.acked ⊆ acked) :
    ({ s with
        journal := s.journal.recordResult c.requestId (fingerprint c.content) result acknowledged
        replies := s.replies ++ [result]
        acked := acked } : AgentState Body).Sound fingerprint := by
  obtain ⟨e, entered, sameId, sameContent⟩ := submitted
  have begun := sound.entered e entered
  have resumed : e.resumable s.everSocket = true := by
    rw [RPCCommand.resumable_content sameContent, RPCCommand.resumable, lifecycle, configured]
    rfl
  have apart : ∀ c' ∈ s.begun, c'.resumable s.everSocket = false → c'.requestId ≠ c.requestId := by
    intro c' member only id
    rw [sound.resumable_same injective member begun (id.trans sameId.symm), resumed] at only
    cases only
  have updates : Updates s { s with
      journal := s.journal.recordResult c.requestId (fingerprint c.content) result acknowledged
      replies := s.replies ++ [result]
      acked := acked }
      (fun row =>
        if row.requestId = c.requestId ∧ row.fingerprint = fingerprint c.content then
          { row with
            result := some (row.result.getD result)
            acknowledged := row.acknowledged || acknowledged }
        else row) :=
    ⟨rfl, fun row => by split <;> rfl, fun row => by split <;> rfl, rfl, rfl, rfl, rfl⟩
  refine sound.update updates (fun _ _ => id) ?_ ?_ ?_ ?_
  · intro row atRow r recorded
    split at recorded
    · rename_i here
      cases old : row.result with
      | none =>
        rw [old] at recorded
        cases recorded
        exact same.trans here.1.symm
      | some before =>
        rw [old] at recorded
        cases recorded
        exact sound.results row atRow before old
    · exact sound.results row atRow r recorded
  · intro r member
    rcases List.mem_append.mp member with old | new
    · exact sound.replies r old
    · cases List.mem_singleton.mp new
      obtain ⟨row, atRow, id, _⟩ := sound.begun e begun
      exact ⟨row, atRow, id.trans (sameId.trans same.symm)⟩
  · intro c' member only row atRow id r recorded marked
    have other : ¬(row.requestId = c.requestId ∧ row.fingerprint = fingerprint c.content) :=
      fun here => apart c' member only (id.symm.trans here.1)
    rw [if_neg other] at recorded marked
    exact more (sound.kept c' member only row atRow id r recorded marked)
  · intro c' inside running only
    obtain ⟨silent, blank, _⟩ := sound.alone c' inside running only
    have apart := apart c' (sound.running c' inside running) only
    refine ⟨fun r member id => ?_, fun row atRow id => ?_⟩
    · rcases List.mem_append.mp member with old | new
      · exact silent r old id
      · cases List.mem_singleton.mp new
        exact apart (id.symm.trans same)
    · rw [if_neg fun here => apart (id.symm.trans here.1)]
      exact blank row atRow id

variable [DecidableEq Body]

variable {event : AgentEvent Body}

theorem Sound.step (sound : s.Sound fingerprint) (injective : Set.InjOn fingerprint s.contents)
    (run : s.step fingerprint event = some t) : t.Sound fingerprint := by
  cases event with
  | deliver c now =>
    simp only [AgentState.step] at run
    split at run
    · rename_i ready
      rw [Bool.and_eq_true, Option.isNone_iff_eq_none] at ready
      rcases begin_cases fingerprint s.journal c (c.resumable s.socket) now with
        ⟨row, member, same, ⟨reply, id, done⟩ | ⟨reply, result, done⟩ | ⟨resumed, content, done⟩⟩ | ⟨absent, done⟩
      · rw [done] at run
        cases run
        refine sound.reply ready.2 fun r member' => ?_
        cases List.mem_singleton.mp member'
        exact ⟨row, member, same.trans id.symm⟩
      · rw [done] at run
        cases run
        refine sound.reply ready.2 fun r member' => ?_
        cases List.mem_singleton.mp member'
        exact ⟨row, member, (sound.results row member reply result).symm⟩
      · rw [done] at run
        cases run
        exact sound.resume resumed member same content
      · rw [done] at run
        cases run
        exact sound.insert absent now
    · cases run
  | enter =>
    simp only [AgentState.step] at run
    split at run
    · rename_i c running
      cases run
      exact sound.enter injective running
    · cases run
  | complete outcome =>
    simp only [AgentState.step] at run
    split at run
    · cases run
    · rename_i c inside running
      split at run
      · split at run
        · cases run
          have idle := sound.restart s.socket
          have same : (s.everSocket || s.socket) = s.everSocket := by
            cases configured : s.socket with
            | true => rw [sound.sockets configured, Bool.true_or]
            | false => rw [Bool.or_false]
          rw [same] at idle
          exact idle
        · rename_i result built
          cases run
          exact sound.finish injective running (Outcome.result_requestId built)
      · cases run
  | resend =>
    cases run
    exact sound.resend
  | acknowledge requestId =>
    simp only [AgentState.step] at run
    split at run
    · rename_i answered
      cases run
      exact sound.acknowledge (by simpa using answered)
    · cases run
  | report c result acknowledged =>
    simp only [AgentState.step] at run
    split at run
    · rename_i allowed
      simp only [Bool.and_eq_true, beq_iff_eq, any_eq_true, decide_eq_true_eq] at allowed
      obtain ⟨⟨⟨lifecycle, configured⟩, same⟩, e, entered, id, content⟩ := allowed
      cases run
      refine sound.report injective lifecycle configured ⟨e, entered, id, content⟩ same acknowledged _ ?_
      split
      · exact subset_append_left _ _
      · exact List.Subset.refl _
    · cases run
  | restart socket =>
    cases run
    exact sound.restart socket

variable {r : Result Body}

theorem step_recorded (run : s.step fingerprint event = some t) (member : row ∈ s.journal)
    (result : row.result = some r) : ∃ later ∈ t.journal, later.requestId = row.requestId ∧
      later.fingerprint = row.fingerprint ∧ later.result = some r := by
  have same : ∀ {n : AgentState Body}, n.journal = s.journal → ∃ later ∈ n.journal,
      later.requestId = row.requestId ∧ later.fingerprint = row.fingerprint ∧ later.result = some r :=
    fun journal => ⟨row, journal ▸ member, rfl, rfl, result⟩
  have mapped : ∀ {n : AgentState Body} {f : Row Body → Row Body}, n.journal = s.journal.map f →
      (f row).requestId = row.requestId ∧ (f row).fingerprint = row.fingerprint ∧ (f row).result = some r →
      ∃ later ∈ n.journal, later.requestId = row.requestId ∧ later.fingerprint = row.fingerprint ∧
        later.result = some r :=
    fun journal kept => ⟨_, journal ▸ mem_map_of_mem member, kept⟩
  cases event with
  | deliver c now =>
    simp only [AgentState.step] at run
    split at run
    · rcases begin_cases fingerprint s.journal c (c.resumable s.socket) now with
        ⟨_, _, _, ⟨reply, _, done⟩ | ⟨reply, _, done⟩ | ⟨_, _, done⟩⟩ | ⟨_, done⟩
      · rw [done] at run
        cases run
        exact same rfl
      · rw [done] at run
        cases run
        exact same rfl
      · rw [done] at run
        cases run
        exact same rfl
      · rw [done] at run
        cases run
        exact ⟨row, mem_append_left _ member, rfl, rfl, result⟩
    · cases run
  | enter =>
    simp only [AgentState.step] at run
    split at run
    · cases run
      exact same rfl
    · cases run
  | complete outcome =>
    simp only [AgentState.step] at run
    split at run
    · cases run
    · split at run
      · split at run
        · cases run
          exact same rfl
        · rename_i answer _
          cases run
          refine mapped (show _ = CommandJournal.finish s.journal answer from rfl) ?_
          rw [if_neg fun blank => by rw [result] at blank; cases blank.2]
          exact ⟨rfl, rfl, result⟩
      · cases run
  | resend =>
    cases run
    exact same rfl
  | acknowledge requestId =>
    simp only [AgentState.step] at run
    split at run
    · cases run
      refine mapped (show _ = CommandJournal.acknowledge s.journal requestId from rfl) ?_
      split <;> exact ⟨rfl, rfl, result⟩
    · cases run
  | report c answer acknowledged =>
    simp only [AgentState.step] at run
    split at run
    · cases run
      refine mapped (show _ = CommandJournal.recordResult s.journal c.requestId (fingerprint c.content) answer
        acknowledged from rfl) ?_
      split
      · exact ⟨rfl, rfl, by rw [result]; rfl⟩
      · exact ⟨rfl, rfl, result⟩
    · cases run
  | restart socket =>
    cases run
    exact same rfl

theorem step_contents (run : s.step fingerprint event = some t) : s.contents ⊆ t.contents := by
  rintro content ⟨c, begun, rfl⟩
  refine ⟨c, ?_, rfl⟩
  cases event with
  | deliver c' now =>
    simp only [AgentState.step] at run
    split at run
    · split at run
      · cases run
        exact begun
      · cases run
        exact mem_append_left _ begun
    · cases run
  | complete outcome =>
    simp only [AgentState.step] at run
    split at run
    · cases run
    · split at run
      · split at run <;> (cases run; exact begun)
      · cases run
  | enter | acknowledge | report =>
    simp only [AgentState.step] at run
    split at run <;> cases run
    exact begun
  | resend | restart =>
    cases run
    exact begun

theorem Sound.run (sound : s.Sound fingerprint) (run : AgentRun fingerprint s t)
    (injective : Set.InjOn fingerprint t.contents) : t.Sound fingerprint := by
  induction run with
  | start => exact sound
  | step event _ turn ih =>
    have before := injective.mono (step_contents turn)
    exact (ih before).step before turn

theorem run_recorded (run : AgentRun fingerprint s t) (member : row ∈ s.journal) (result : row.result = some r) :
    ∃ later ∈ t.journal, later.requestId = row.requestId ∧
      later.fingerprint = row.fingerprint ∧ later.result = some r := by
  induction run with
  | start => exact ⟨row, member, rfl, rfl, result⟩
  | step event _ turn ih =>
    obtain ⟨now, atNow, id, content, kept⟩ := ih
    obtain ⟨later, atLater, id', content', kept'⟩ := step_recorded turn atNow kept
    exact ⟨later, atLater, id'.trans id, content'.trans content, kept'⟩

/-- What the Agent promises about the execution of commands, as long as their
contents are among those that fingerprints tell apart. -/
structure AtMostOnce (fingerprint : Content Body → String) (apart : Set (Content Body)) (s : AgentState Body) :
    Prop where
  /-- The handler of a command that is never resumable is entered at most once. -/
  once : ∀ c ∈ s.begun, c.resumable s.everSocket = false →
    s.entered.countP (fun e => e.requestId == c.requestId) ≤ 1
  /-- Every later delivery of a command with a recorded result is answered with it, and changes nothing. -/
  replayed : ∀ row ∈ s.journal, ∀ r, row.result = some r → ∀ t, AgentRun fingerprint s t → t.contents ⊆ apart →
    t.execution = none → ∀ (c : RPCCommand Body) now, c.valid → c.requestId = row.requestId →
      fingerprint c.content = row.fingerprint →
      t.step fingerprint (.deliver c now) = some { t with replies := t.replies ++ [r] }
  /-- A request with another content is refused. -/
  refused : s.execution = none → ∀ c ∈ s.begun, ∀ (c' : RPCCommand Body) now, c'.valid →
    c'.requestId = c.requestId → c'.content ∈ apart → c'.content ≠ c.content →
      s.step fingerprint (.deliver c' now) = some { s with replies := s.replies ++ [conflict c'.requestId] }
  /-- Whatever is executed for a request has the content with which it was begun. -/
  unchanged : ∀ e ∈ s.entered, ∀ c ∈ s.begun, e.requestId = c.requestId → e.content = c.content
  /-- A recorded result is pending until it is acknowledged. -/
  kept : ∀ c ∈ s.begun, c.resumable s.everSocket = false → ∀ row ∈ s.journal, row.requestId = c.requestId →
    ∀ r, row.result = some r → r ∈ s.journal.pendingResults ∨ r ∈ s.acked

theorem deliver_answered (valid : c.valid) (idle : s.execution = none) {now : Nat}
    (answered : s.journal.begin fingerprint c (c.resumable s.socket) now = (s.journal, some r)) :
    s.step fingerprint (.deliver c now) = some { s with replies := s.replies ++ [r] } := by
  simp only [AgentState.step]
  rw [if_pos (by rw [valid, idle]; rfl), answered]

theorem Sound.atMostOnce (sound : s.Sound fingerprint) {apart : Set (Content Body)}
    (injective : Set.InjOn fingerprint apart) (within : s.contents ⊆ apart) : s.AtMostOnce fingerprint apart where
  once := sound.once
  replayed row member r result t run later idle c now valid same content := by
    obtain ⟨row', atLater, id, print, kept⟩ := run_recorded run member result
    have recorded : fingerprint c.content = row'.fingerprint := content.trans print.symm
    have answered := (begin_of_row (sound.run run (injective.mono later)).idsOnce atLater
      (same.trans id.symm) (c.resumable t.socket) now).2 recorded r kept
    exact deliver_answered valid idle answered
  refused idle c begun c' now valid same known other := by
    obtain ⟨row, member, id, print⟩ := sound.begun c begun
    have differs : fingerprint c'.content ≠ row.fingerprint := fun equal =>
      other (injective known (within ⟨c, begun, rfl⟩) (equal.trans print))
    exact deliver_answered valid idle ((begin_of_row sound.idsOnce member (same.trans id.symm) _ now).1 differs)
  unchanged e entered c begun same :=
    sound.same_content (injective.mono within) (sound.entered e entered) begun same
  kept c begun only row member same r result := by
    cases marked : row.acknowledged with
    | false => exact .inl (mem_pendingResults.mpr ⟨row, member, result, marked⟩)
    | true => exact .inr (sound.kept c begun only row member same r result marked)

end AgentState

/-- In every run of an Agent that starts with an empty state directory, commands
are executed at most once, provided that fingerprints tell their contents apart. -/
theorem AgentRun.at_most_once [DecidableEq Body] {fingerprint : Content Body → String} {apart : Set (Content Body)}
    (injective : Set.InjOn fingerprint apart) {socket : Bool} {s : AgentState Body}
    (run : AgentRun fingerprint (AgentState.new socket) s) (within : s.contents ⊆ apart) :
    s.AtMostOnce fingerprint apart :=
  ((AgentState.Sound.new socket).run run (injective.mono within)).atMostOnce injective within

section Example

def scanCommand : RPCCommand Unit :=
  { id := some "1", requestId := "scan-1", method := "POST", path := "/api/child/scan" }

def listContent : Content Unit :=
  { method := "POST", path := "/api/child/inbounds", query := "", body := none, stream := false }

/-- The SHA-256 digests of both contents. -/
def scanFingerprint (c : Content Unit) : String :=
  if c = scanCommand.content then "494f3b6d9bf168119dac655db8ab9834a64aa5a942c0b0dcd5884e45ef05a2bb"
  else "583e0c146b1ef9b033e1b580d1094f99583eff5d14cc7e4341402a5b7046d558"

/-- An Agent that has executed a command and not yet heard of the controller. -/
def scannedAgent : AgentState Unit :=
  { journal :=
      [{ requestId := "scan-1"
         fingerprint := "494f3b6d9bf168119dac655db8ab9834a64aa5a942c0b0dcd5884e45ef05a2bb"
         result := some { requestId := "scan-1", status := 200, commandId := some "1", body := some () }
         createdAt := 7 }]
    socket := false
    everSocket := false
    begun := [scanCommand]
    entered := [scanCommand]
    replies := [{ requestId := "scan-1", status := 200, commandId := some "1", body := some () }] }

theorem scannedAgent_at_most_once :
    scannedAgent.AtMostOnce scanFingerprint {scanCommand.content, listContent} := by
  have run : AgentRun scanFingerprint (AgentState.new false) scannedAgent :=
    .step (.complete (.ok ())) (.step .enter (.step (.deliver scanCommand 7) .start rfl) rfl) rfl
  refine AgentRun.at_most_once ?_ run ?_
  · rw [Set.injOn_pair]
    exact fun same => absurd same (by decide)
  · rintro content ⟨c, begun, rfl⟩
    cases List.mem_singleton.mp begun
    exact Set.mem_insert _ _

end Example

end OpenNode.Agent
