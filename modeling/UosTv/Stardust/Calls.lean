import UosTv.Stardust.Client

/-!
The table of pending calls (`Client::call` and the I/O task that `connect` spawns).

A call enters the table before it sends its frame, and it is taken out by the I/O task when a
message with its id comes in, or by the call itself when its time is up. Nothing takes it out when
the frame cannot be sent, and nothing empties the table when the I/O task ends, so the branch for
a channel that is dropped is never taken. Every return leaves the table without the call, and the
end of the I/O task leaves no call waiting, iff frames are sent while the task runs and the task
ends when no call waits for an answer (`calls_iff`).

The tasks are taken step by step: the two locks of a call, and what the I/O task does with one
message. Of the frames only that they have been sent is kept.
-/

namespace Stardust

open Past Rust

/-- How far a call has got: it is in the table, its frame is sent, its time is up, or it has
returned. -/
inductive Phase where
  | inserted
  | waiting
  | expired
  | returned (result : Except Error (List UInt8))

/-- A call, with what has been put into its channel. -/
structure Call where
  frame : Message
  phase : Phase
  answer : Option Response

/-- The calls of a client, in their order; the entry of a call in the table is its number.
`closed` says that the I/O task has ended. -/
structure Callers where
  client : Client
  closed : Bool
  sent : List Message
  calls : List Call

/-- A call takes its next step, or the I/O task reads a message or ends. -/
inductive CallStep where
  | start (stamp : Stamp) (method : String) (params : List UInt8)
  | send (k : Nat)
  | wake (k : Nat)
  | expire (k : Nat)
  | remove (k : Nat)
  | receive (msg : Message)
  | lost

/-- What becomes of a call when something is put into its channel. -/
def answerCall (calls : List Call) : Client.Delivery → List Call
  | .response k response => calls.modify k fun c => { c with answer := some response }
  | .message _ _ => calls

namespace Callers

def init : Callers := ⟨.new, false, [], []⟩

variable (fromReader : List UInt8 → Option (List UInt8)) (w : Callers)

/-- The call has got further. -/
def setPhase (k : Nat) (c : Call) (phase : Phase) : Callers :=
  { w with calls := w.calls.set k { c with phase } }

/-- The sender of the call's channel is still in the table. -/
def Held (k : Nat) (c : Call) : Prop := w.client.pending.get c.frame.id = some k

instance (k : Nat) (c : Call) : Decidable (w.Held k c) := inferInstanceAs (Decidable (_ = _))

/-- The frame is handed to the I/O task, which fails when that has ended. -/
def send (k : Nat) (c : Call) : Option Callers :=
  match c.phase with
  | .inserted =>
    if w.closed then some (w.setPhase k c (.returned (.error .connectionClosed)))
    else some { w.setPhase k c .waiting with sent := w.sent ++ [c.frame] }
  | _ => none

/-- The channel wakes the call, with a response or because it is dropped. -/
def wake (k : Nat) (c : Call) : Option Callers :=
  match c.phase, c.answer with
  | .waiting, some response =>
    some (w.setPhase k c (.returned (response.result.mapError .broker)))
  | .waiting, none =>
    if w.Held k c then none else some (w.setPhase k c (.returned (.error (.noResponse c.frame.id))))
  | _, _ => none

/-- The timer is looked at when the channel has nothing to say. -/
def expire (k : Nat) (c : Call) : Option Callers :=
  match c.phase, c.answer with
  | .waiting, none => if w.Held k c then some (w.setPhase k c .expired) else none
  | _, _ => none

/-- The call takes itself out of the table. -/
def remove (k : Nat) (c : Call) : Option Callers :=
  match c.phase with
  | .expired => some { w.setPhase k c (.returned (.error (.timeout c.frame.id))) with
      client := { w.client with pending := w.client.pending.remove c.frame.id } }
  | _ => none

/-- What a step does, if it is possible. -/
def step : CallStep → Option Callers
  | .start stamp method params =>
    let frame := w.client.callFrame stamp method params
    some { w with
      client := { w.client with pending := w.client.pending.insert frame.id w.calls.length }
      calls := w.calls ++ [⟨frame, .inserted, none⟩] }
  | .send k => w.calls[k]?.bind (w.send k)
  | .wake k => w.calls[k]?.bind (w.wake k)
  | .expire k => w.calls[k]?.bind (w.expire k)
  | .remove k => w.calls[k]?.bind (w.remove k)
  | .receive msg =>
    if w.closed then none
    else
      let received := w.client.receive fromReader msg
      some { w with client := received.1, calls := received.2.foldl answerCall w.calls }
  | .lost => if w.closed then none else some { w with closed := true }

/-- The state after a run, the newest step first, if all steps are possible. -/
def exec : List CallStep → Option Callers
  | [] => some init
  | s :: run => (exec run).bind fun w => w.step fromReader s

end Callers

/-- The ids of the calls of a run, the newest first. -/
def ids (run : List CallStep) : List Uuid :=
  run.filterMap fun s => match s with
    | .start stamp _ _ => some stamp.id
    | _ => none

def Call.Finished (c : Call) : Prop := ∃ result, c.phase = .returned result

/-- The call has neither been answered nor returned. -/
def Call.InFlight (c : Call) : Prop := c.answer = none ∧ ¬ c.Finished

section Properties

variable (fromReader : List UInt8 → Option (List UInt8)) (s : CallStep) (past : List CallStep)

/-- A call that the step makes return is not in the table any more. -/
def ReturnsClean : Prop :=
  ∀ w w', Callers.exec fromReader past = some w → w.step fromReader s = some w' →
    ∀ (k : Nat) (c c' : Call), w.calls[k]? = some c → w'.calls[k]? = some c' →
      ¬ c.Finished → c'.Finished →
      w'.client.pending.get c.frame.id = none

/-- When the I/O task ends, the entries of all calls in flight are dropped. -/
def LossClean : Prop :=
  ∀ w w', Callers.exec fromReader past = some w → w.step fromReader s = some w' → s = .lost →
    ∀ (k : Nat) (c : Call), w'.calls[k]? = some c → c.InFlight → ¬ w'.Held k c

/-- Frames are sent while the I/O task runs, unless the call has been answered before, and the task
ends when no call is in flight. -/
def SendsInTime : Prop :=
  ∀ w w', Callers.exec fromReader past = some w → w.step fromReader s = some w' →
    (∀ (k : Nat) (c : Call), s = .send k → w.calls[k]? = some c → w.closed → c.answer ≠ none) ∧
      (s = .lost → ∀ c ∈ w.calls, ¬ c.InFlight)

end Properties

/-! ### One step -/

theorem Call.not_finished (c : Call) {phase : Phase} (now : c.phase = phase)
    (unfinished : ∀ result, phase ≠ .returned result) : ¬ c.Finished := by
  rintro ⟨result, returned⟩
  exact unfinished result (now.symm.trans returned)

namespace Callers

variable {w w' : Callers} {k : Nat} {c : Call}

theorem send_cases (sent : w.send k c = some w') : ¬ c.Finished ∧
    ((w.closed ∧ w' = w.setPhase k c (.returned (.error .connectionClosed))) ∨
      w.closed = false ∧ w' = { w.setPhase k c .waiting with sent := w.sent ++ [c.frame] }) := by
  cases phase : c.phase with
  | inserted =>
    have unfinished := c.not_finished phase (by rintro _ ⟨⟩)
    rw [send, phase] at sent
    cases closed : w.closed with
    | true => exact ⟨unfinished, .inl ⟨rfl, by simpa [closed] using sent.symm⟩⟩
    | false => exact ⟨unfinished, .inr ⟨rfl, by simpa [closed] using sent.symm⟩⟩
  | waiting => simp [send, phase] at sent
  | expired => simp [send, phase] at sent
  | returned result => simp [send, phase] at sent

theorem wake_cases (woken : w.wake k c = some w') :
    ¬ c.Finished ∧ (c.answer = none → ¬ w.Held k c) ∧ ∃ result, w' = w.setPhase k c (.returned result) := by
  cases phase : c.phase with
  | waiting =>
    have unfinished := c.not_finished phase (by rintro _ ⟨⟩)
    cases answer : c.answer with
    | some response =>
      rw [wake, phase, answer] at woken
      exact ⟨unfinished, by rintro ⟨⟩, _, (Option.some.inj woken).symm⟩
    | none =>
      rw [wake, phase, answer] at woken
      by_cases held : w.Held k c
      · simp [held] at woken
      · exact ⟨unfinished, fun _ => held, _, by simpa [held] using woken.symm⟩
  | inserted => simp [wake, phase] at woken
  | expired => simp [wake, phase] at woken
  | returned result => simp [wake, phase] at woken

theorem expire_cases (expired : w.expire k c = some w') :
    ¬ c.Finished ∧ w' = w.setPhase k c .expired := by
  cases phase : c.phase with
  | waiting =>
    have unfinished := c.not_finished phase (by rintro _ ⟨⟩)
    cases answer : c.answer with
    | some response => simp [expire, phase, answer] at expired
    | none =>
      rw [expire, phase, answer] at expired
      by_cases held : w.Held k c
      · exact ⟨unfinished, by simpa [held] using expired.symm⟩
      · simp [held] at expired
  | inserted => simp [expire, phase] at expired
  | expired => simp [expire, phase] at expired
  | returned result => simp [expire, phase] at expired

theorem remove_cases (removed : w.remove k c = some w') : ¬ c.Finished ∧
    w' = { w.setPhase k c (.returned (.error (.timeout c.frame.id))) with
      client := { w.client with pending := w.client.pending.remove c.frame.id } } := by
  cases phase : c.phase with
  | expired =>
    have unfinished := c.not_finished phase (by rintro _ ⟨⟩)
    rw [remove, phase] at removed
    exact ⟨unfinished, (Option.some.inj removed).symm⟩
  | inserted => simp [remove, phase] at removed
  | waiting => simp [remove, phase] at removed
  | returned result => simp [remove, phase] at removed

variable {fromReader : List UInt8 → Option (List UInt8)}

theorem receive_cases {msg : Message} (received : w.step fromReader (.receive msg) = some w') :
    w' = { w with
      client := (w.client.receive fromReader msg).1
      calls := (w.client.receive fromReader msg).2.foldl answerCall w.calls } := by
  rw [step] at received
  split at received
  · cases received
  · exact (Option.some.inj received).symm

theorem lost_cases (lost : w.step fromReader .lost = some w') : w' = { w with closed := true } := by
  rw [step] at lost
  split at lost
  · cases lost
  · exact (Option.some.inj lost).symm

end Callers

/-! ### The table -/

/-- An entry belongs to the call of its id, which has not been answered, and a call in flight has
its entry. -/
structure Callers.Consistent (w : Callers) : Prop where
  owner {id : Uuid} {k : Nat} (entry : w.client.pending.get id = some k) :
    ∃ c, w.calls[k]? = some c ∧ c.frame.id = id ∧ c.answer = none
  held {k : Nat} {c : Call} (call : w.calls[k]? = some c) (inFlight : c.InFlight) : w.Held k c
  distinct : (w.calls.map (·.frame.id)).Nodup

namespace Callers.Consistent

variable {fromReader : List UInt8 → Option (List UInt8)} {w w' : Callers} {k k' : Nat} {c c' : Call}

/-- Calls with one id are the same call. -/
theorem same_call (consistent : w.Consistent) (call : w.calls[k]? = some c)
    (call' : w.calls[k']? = some c') (same : c.frame.id = c'.frame.id) : k = k' := by
  have left : (w.calls.map (·.frame.id))[k]? = some c.frame.id := by
    rw [List.getElem?_map, call, Option.map_some]
  have right : (w.calls.map (·.frame.id))[k']? = some c.frame.id := by
    rw [List.getElem?_map, call', Option.map_some, same]
  obtain ⟨below, _⟩ := List.getElem?_eq_some_iff.mp left
  exact (List.getElem?_inj below consistent.distinct).mp (left.trans right.symm)

/-- Under the id of a call there is its own entry or none. -/
theorem held_or_none (consistent : w.Consistent) (call : w.calls[k]? = some c) :
    w.Held k c ∨ w.client.pending.get c.frame.id = none := by
  cases entry : w.client.pending.get c.frame.id with
  | none => exact .inr rfl
  | some k' =>
    obtain ⟨c', call', same, -⟩ := consistent.owner entry
    obtain rfl := consistent.same_call call call' same.symm
    exact .inl entry

theorem none_of_answered (consistent : w.Consistent) (call : w.calls[k]? = some c)
    (answered : c.answer ≠ none) : w.client.pending.get c.frame.id = none := by
  rcases consistent.held_or_none call with held | absent
  · obtain ⟨c', call', -, unanswered⟩ := consistent.owner held
    obtain rfl := Option.some.inj (call.symm.trans call')
    exact absurd unanswered answered
  · exact absent

theorem map_set {calls : List Call} (call : calls[k]? = some c) (same : c'.frame = c.frame) :
    (calls.set k c').map (·.frame.id) = calls.map (·.frame.id) := by
  obtain ⟨below, rfl⟩ := List.getElem?_eq_some_iff.mp call
  apply List.ext_getElem?
  intro i
  rw [List.getElem?_map, List.getElem?_map, List.getElem?_set]
  by_cases here : k = i
  · subst here
    rw [if_pos rfl, if_pos below, call, Option.map_some, Option.map_some, same]
  · rw [if_neg here]

theorem setPhase (consistent : w.Consistent) (call : w.calls[k]? = some c) {phase : Phase}
    (unfinished : ¬ c.Finished) : (w.setPhase k c phase).Consistent := by
  have below := (List.getElem?_eq_some_iff.mp call).1
  refine ⟨fun {id k'} entry => ?_, fun {k' c'} call' inFlight => ?_, ?_⟩
  · obtain ⟨c', call', same, unanswered⟩ := consistent.owner entry
    by_cases here : k = k'
    · subst here
      obtain rfl := Option.some.inj (call.symm.trans call')
      exact ⟨_, List.getElem?_set_self below, same, unanswered⟩
    · exact ⟨c', (List.getElem?_set_ne here).trans call', same, unanswered⟩
  · by_cases here : k = k'
    · subst here
      obtain rfl := Option.some.inj ((List.getElem?_set_self below).symm.trans call')
      have held : w.Held k c := consistent.held call ⟨inFlight.1, unfinished⟩
      exact held
    · exact consistent.held ((List.getElem?_set_ne here).symm.trans call') inFlight
  · change ((w.calls.set k { c with phase }).map (·.frame.id)).Nodup
    rw [map_set call]
    · exact consistent.distinct
    · rfl

/-- An entry is taken out with what was waiting for it. -/
theorem removed (consistent : w.Consistent) (call : w.calls[k]? = some c) {done : Call}
    (same : done.frame = c.frame) (ended : ¬ done.InFlight) {client : Client}
    (gone : client.pending = w.client.pending.remove c.frame.id) :
    ({ w with client, calls := w.calls.set k done } : Callers).Consistent := by
  have below := (List.getElem?_eq_some_iff.mp call).1
  refine ⟨fun {id k'} entry => ?_, fun {k' c'} call' inFlight => ?_, ?_⟩
  · change client.pending.get id = some k' at entry
    rw [gone, HashMap.get_remove] at entry
    split at entry
    · cases entry
    · rename_i other
      obtain ⟨c', call', same', unanswered⟩ := consistent.owner entry
      have apart : k ≠ k' := by
        rintro rfl
        obtain rfl := Option.some.inj (call.symm.trans call')
        exact other same'.symm
      exact ⟨c', (List.getElem?_set_ne apart).trans call', same', unanswered⟩
  · by_cases here : k = k'
    · subst here
      obtain rfl := Option.some.inj ((List.getElem?_set_self below).symm.trans call')
      exact absurd inFlight ended
    · have call'' : w.calls[k']? = some c' := (List.getElem?_set_ne here).symm.trans call'
      change client.pending.get c'.frame.id = some k'
      rw [gone, HashMap.get_remove]
      split
      · rename_i same'
        exact absurd (consistent.same_call call'' call same') (Ne.symm here)
      · exact consistent.held call'' inFlight
  · change ((w.calls.set k done).map (·.frame.id)).Nodup
    rw [map_set call same]
    exact consistent.distinct

/-- A call starts with a new id. -/
theorem start (consistent : w.Consistent) {stamp : Stamp} {method : String} {params : List UInt8}
    (fresh : stamp.id ∉ w.calls.map (·.frame.id))
    (stepped : w.step fromReader (.start stamp method params) = some w') : w'.Consistent := by
  obtain rfl := Option.some.inj stepped
  have old : ∀ {k' : Nat} {c' : Call}, w.calls[k']? = some c' → c'.frame.id ≠ stamp.id := by
    intro k' c' call' same
    exact fresh (List.mem_map.mpr ⟨c', List.mem_of_getElem? call', same⟩)
  refine ⟨fun {id k'} entry => ?_, fun {k' c'} call' inFlight => ?_, ?_⟩
  · change (w.client.pending.insert stamp.id w.calls.length).get id = some k' at entry
    rw [HashMap.get_insert] at entry
    split at entry
    · rename_i same
      cases entry
      exact ⟨_, List.getElem?_concat_length, same.symm, rfl⟩
    · obtain ⟨c', call', same, unanswered⟩ := consistent.owner entry
      have below := (List.getElem?_eq_some_iff.mp call').1
      exact ⟨c', (List.getElem?_append_left below).trans call', same, unanswered⟩
  · change (w.client.pending.insert stamp.id w.calls.length).get c'.frame.id = some k'
    rw [HashMap.get_insert]
    by_cases below : k' < w.calls.length
    · have call'' : w.calls[k']? = some c' := (List.getElem?_append_left below).symm.trans call'
      rw [if_neg (old call'')]
      exact consistent.held call'' inFlight
    · rw [List.getElem?_append_right (Nat.le_of_not_lt below), List.getElem?_singleton] at call'
      split at call'
      · cases call'
        exact (if_pos rfl).trans (congrArg some (by omega))
      · cases call'
  · change ((w.calls ++ [Call.mk _ _ _]).map (·.frame.id)).Nodup
    rw [List.map_append, List.map_singleton]
    exact List.nodup_append.mpr ⟨consistent.distinct, List.nodup_singleton _, by
      rintro id mem id' last rfl
      rw [List.mem_singleton.mp last] at mem
      exact fresh mem⟩

theorem foldl_message {deliveries : List Client.Delivery} {calls : List Call}
    (messages : ∀ d ∈ deliveries, ∃ rx msg, d = .message rx msg) :
    deliveries.foldl answerCall calls = calls := by
  induction deliveries with
  | nil => rfl
  | cons d deliveries ih =>
    obtain ⟨⟨rx, msg, rfl⟩, rest⟩ := List.forall_mem_cons.mp messages
    exact ih rest

theorem receive (consistent : w.Consistent) {msg : Message}
    (stepped : w.step fromReader (.receive msg) = some w') : w'.Consistent := by
  obtain rfl := receive_cases stepped
  cases entry : w.client.pending.get msg.id with
  | none =>
    rw [Client.receive, entry]
    rw [foldl_message]
    · exact ⟨consistent.owner, consistent.held, consistent.distinct⟩
    · intro d mem
      obtain ⟨e, -, mem⟩ := List.mem_flatMap.mp mem
      split at mem
      · obtain ⟨rx, -, rfl⟩ := List.mem_map.mp mem
        exact ⟨rx, msg, rfl⟩
      · cases mem
  | some k =>
    obtain ⟨c, call, same, -⟩ := consistent.owner entry
    rw [Client.receive, entry]
    change ({ w with client := _, calls := w.calls.modify k _ } : Callers).Consistent
    rw [List.modify_eq_set_getElem?, call]
    have gone : ({ w.client with pending := w.client.pending.remove msg.id } : Client).pending =
        w.client.pending.remove c.frame.id := by rw [same]
    refine consistent.removed call ?_ ?_ gone
    · rfl
    · rintro ⟨unanswered, -⟩
      cases unanswered

theorem step (consistent : w.Consistent) {s : CallStep} (stepped : w.step fromReader s = some w')
    (fresh : ∀ id ∈ ids [s], id ∉ w.calls.map (·.frame.id)) : w'.Consistent := by
  cases s with
  | start stamp method params =>
    exact consistent.start (fresh stamp.id (List.mem_singleton_self _)) stepped
  | receive msg => exact consistent.receive stepped
  | lost =>
    obtain rfl := lost_cases stepped
    exact ⟨consistent.owner, consistent.held, consistent.distinct⟩
  | send k =>
    obtain ⟨c, call, sent⟩ := Option.bind_eq_some_iff.mp stepped
    obtain ⟨unfinished, ⟨-, rfl⟩ | ⟨-, rfl⟩⟩ := send_cases sent
    · exact consistent.setPhase call unfinished
    · have waiting : (w.setPhase k c .waiting).Consistent := consistent.setPhase call unfinished
      exact ⟨waiting.owner, waiting.held, waiting.distinct⟩
  | wake k =>
    obtain ⟨c, call, woken⟩ := Option.bind_eq_some_iff.mp stepped
    obtain ⟨unfinished, -, result, rfl⟩ := wake_cases woken
    exact consistent.setPhase call unfinished
  | expire k =>
    obtain ⟨c, call, expired⟩ := Option.bind_eq_some_iff.mp stepped
    obtain ⟨unfinished, rfl⟩ := expire_cases expired
    exact consistent.setPhase call unfinished
  | remove k =>
    obtain ⟨c, call, removed⟩ := Option.bind_eq_some_iff.mp stepped
    obtain ⟨-, rfl⟩ := remove_cases removed
    have gone : ({ w.client with pending := w.client.pending.remove c.frame.id } : Client).pending =
        w.client.pending.remove c.frame.id := rfl
    refine consistent.removed call ?_ ?_ gone
    · rfl
    · rintro ⟨-, unfinished⟩
      exact unfinished ⟨_, rfl⟩

/-- Only the call that takes a step can return in it. -/
theorem returns_of_setPhase {phase : Phase} (taken : w.calls[k']? = some c)
    (call : w.calls[k]? = some c') {c'' : Call}
    (call' : (w.setPhase k' c phase).calls[k]? = some c'') (before : ¬ c'.Finished) (finished : c''.Finished) : k' = k ∧ c = c' := by
  by_cases here : k' = k
  · subst here
    exact ⟨rfl, Option.some.inj (taken.symm.trans call)⟩
  · have same := (List.getElem?_set_ne here).symm.trans call'
    rw [call] at same
    exact absurd (Option.some.inj same ▸ finished) before

/-- A call that is in another phase has not returned. -/
theorem not_finished_of_setPhase {phase : Phase} (taken : w.calls[k]? = some c)
    (call' : (w.setPhase k c phase).calls[k]? = some c')
    (unreturned : ∀ result, phase ≠ .returned result) : ¬ c'.Finished := by
  have below := (List.getElem?_eq_some_iff.mp taken).1
  obtain rfl := Option.some.inj ((List.getElem?_set_self below).symm.trans call')
  exact Call.not_finished _ rfl unreturned

theorem phase_foldl {deliveries : List Client.Delivery} {calls : List Call}
    (call : calls[k]? = some c) (call' : (deliveries.foldl answerCall calls)[k]? = some c') :
    c'.phase = c.phase := by
  induction deliveries generalizing calls c with
  | nil => rw [Option.some.inj (call.symm.trans call')]
  | cons d deliveries ih =>
    cases d with
    | message rx msg => exact ih call call'
    | response i response =>
      have next : (answerCall calls (.response i response))[k]? =
          some (if i = k then { c with answer := some response } else c) := by
        rw [answerCall, List.getElem?_modify, call]
        split <;> rfl
      rw [ih next call']
      split <;> rfl

/-- A call that returns is not in the table, unless its frame could not be sent. -/
theorem returned_cases (consistent : w.Consistent) {s : CallStep}
    (stepped : w.step fromReader s = some w') (call : w.calls[k]? = some c)
    (call' : w'.calls[k]? = some c') (before : ¬ c.Finished) (finished : c'.Finished) :
    (s = .send k ∧ w.closed ∧ w'.client = w.client) ∨ w'.client.pending.get c.frame.id = none := by
  have changed : c ≠ c' := fun same => before (same ▸ finished)
  cases s with
  | start stamp method params =>
    obtain rfl := Option.some.inj stepped
    have below := (List.getElem?_eq_some_iff.mp call).1
    have same := (List.getElem?_append_left below).symm.trans call'
    exact absurd (Option.some.inj (call.symm.trans same)) changed
  | receive msg =>
    obtain rfl := receive_cases stepped
    obtain ⟨result, returned⟩ := finished
    exact absurd ⟨result, (phase_foldl call call').symm.trans returned⟩ before
  | lost =>
    obtain rfl := lost_cases stepped
    exact absurd (Option.some.inj (call.symm.trans call')) changed
  | send k' =>
    obtain ⟨c'', taken, sent⟩ := Option.bind_eq_some_iff.mp stepped
    obtain ⟨unfinished, ⟨closed, rfl⟩ | ⟨-, rfl⟩⟩ := send_cases sent
    · obtain ⟨rfl, -⟩ := returns_of_setPhase taken call call' before finished
      exact .inl ⟨rfl, closed, rfl⟩
    · obtain ⟨rfl, rfl⟩ := returns_of_setPhase taken call call' before finished
      exact absurd finished (not_finished_of_setPhase taken call' (by rintro _ ⟨⟩))
  | wake k' =>
    obtain ⟨c'', taken, woken⟩ := Option.bind_eq_some_iff.mp stepped
    obtain ⟨unfinished, dropped, result, rfl⟩ := wake_cases woken
    obtain ⟨rfl, rfl⟩ := returns_of_setPhase taken call call' before finished
    right
    by_cases answered : c''.answer = none
    · exact (consistent.held_or_none call).resolve_left (dropped answered)
    · exact consistent.none_of_answered call answered
  | expire k' =>
    obtain ⟨c'', taken, expired⟩ := Option.bind_eq_some_iff.mp stepped
    obtain ⟨unfinished, rfl⟩ := expire_cases expired
    obtain ⟨rfl, rfl⟩ := returns_of_setPhase taken call call' before finished
    exact absurd finished (not_finished_of_setPhase taken call' (by rintro _ ⟨⟩))
  | remove k' =>
    obtain ⟨c'', taken, removed⟩ := Option.bind_eq_some_iff.mp stepped
    obtain ⟨unfinished, rfl⟩ := remove_cases removed
    obtain ⟨rfl, rfl⟩ := returns_of_setPhase taken call call' before finished
    right
    exact (HashMap.get_remove _ _ _).trans (if_pos rfl)

end Callers.Consistent

/-! ### Runs -/

section Runs

variable {fromReader : List UInt8 → Option (List UInt8)} {run : List CallStep} {w : Callers}

theorem map_foldl {deliveries : List Client.Delivery} {calls : List Call} :
    (deliveries.foldl answerCall calls).map (·.frame.id) = calls.map (·.frame.id) := by
  induction deliveries generalizing calls with
  | nil => rfl
  | cons d deliveries ih =>
    rw [List.foldl_cons, ih]
    cases d with
    | message rx msg => rfl
    | response k response =>
      rw [answerCall, List.modify_eq_set_getElem?]
      cases call : calls[k]? with
      | none => rfl
      | some c =>
        refine Callers.Consistent.map_set call ?_
        rfl

/-- A call that starts is the only change to who has called. -/
theorem map_id_step {w' : Callers} {s : CallStep} (stepped : w.step fromReader s = some w') :
    w'.calls.map (·.frame.id) = w.calls.map (·.frame.id) ++ ids [s] := by
  have set : ∀ {k : Nat} {c : Call} {phase : Phase}, w.calls[k]? = some c →
      (w.setPhase k c phase).calls.map (·.frame.id) = w.calls.map (·.frame.id) := by
    intro k c phase call
    refine Callers.Consistent.map_set call ?_
    rfl
  cases s with
  | start stamp method params =>
    obtain rfl := Option.some.inj stepped
    rw [List.map_append]
    rfl
  | receive msg =>
    obtain rfl := Callers.receive_cases stepped
    exact map_foldl.trans (List.append_nil _).symm
  | lost =>
    obtain rfl := Callers.lost_cases stepped
    exact (List.append_nil _).symm
  | send k =>
    obtain ⟨c, call, sent⟩ := Option.bind_eq_some_iff.mp stepped
    obtain ⟨-, ⟨-, rfl⟩ | ⟨-, rfl⟩⟩ := Callers.send_cases sent
    · exact (set call).trans (List.append_nil _).symm
    · exact (set call).trans (List.append_nil _).symm
  | wake k =>
    obtain ⟨c, call, woken⟩ := Option.bind_eq_some_iff.mp stepped
    obtain ⟨-, -, result, rfl⟩ := Callers.wake_cases woken
    exact (set call).trans (List.append_nil _).symm
  | expire k =>
    obtain ⟨c, call, expired⟩ := Option.bind_eq_some_iff.mp stepped
    obtain ⟨-, rfl⟩ := Callers.expire_cases expired
    exact (set call).trans (List.append_nil _).symm
  | remove k =>
    obtain ⟨c, call, removed⟩ := Option.bind_eq_some_iff.mp stepped
    obtain ⟨-, rfl⟩ := Callers.remove_cases removed
    exact (set call).trans (List.append_nil _).symm

theorem ids_cons (s : CallStep) (run : List CallStep) : ids (s :: run) = ids [s] ++ ids run := by
  cases s <;> rfl

theorem consistent_exec (ran : Callers.exec fromReader run = some w) (distinct : (ids run).Nodup) :
    w.Consistent ∧ ∀ id, id ∈ w.calls.map (·.frame.id) ↔ id ∈ ids run := by
  induction run generalizing w with
  | nil =>
    obtain rfl := Option.some.inj ran
    refine ⟨⟨fun {id k} entry => ?_, fun {k c} call => ?_, List.nodup_nil⟩, fun id => Iff.rfl⟩
    · rw [Callers.init, Client.new, HashMap.get_empty] at entry
      cases entry
    · cases call
  | cons s run ih =>
    obtain ⟨before, earlier, stepped⟩ := Option.bind_eq_some_iff.mp ran
    rw [ids_cons, List.nodup_append] at distinct
    obtain ⟨-, rest, apart⟩ := distinct
    obtain ⟨consistent, known⟩ := ih earlier rest
    refine ⟨consistent.step stepped fun id new old => ?_, fun id => ?_⟩
    · exact apart id new id ((known id).mp old) rfl
    · have new := ids_cons s run
      rw [map_id_step stepped, new, List.mem_append, List.mem_append, known, or_comm]

/-- One step, after a run with distinct ids. -/
theorem clean_iff {s : CallStep} (distinct : (ids run).Nodup) :
    ReturnsClean fromReader s run ∧ LossClean fromReader s run ↔ SendsInTime fromReader s run := by
  constructor
  · rintro ⟨returns, loss⟩ w w' ran stepped
    have consistent := (consistent_exec ran distinct).1
    constructor
    · rintro k c rfl call closed unanswered
      obtain ⟨c', call', sent⟩ := Option.bind_eq_some_iff.mp stepped
      obtain rfl := Option.some.inj (call.symm.trans call')
      obtain ⟨unfinished, ⟨-, rfl⟩ | ⟨opened, -⟩⟩ := Callers.send_cases sent
      · have below := (List.getElem?_eq_some_iff.mp call).1
        have gone := returns w _ ran stepped k c _ call (List.getElem?_set_self below) unfinished
          ⟨_, rfl⟩
        have held : w.client.pending.get c.frame.id = some k :=
          consistent.held call ⟨unanswered, unfinished⟩
        exact absurd (held.symm.trans gone) (by simp)
      · rw [opened] at closed
        cases closed
    · rintro rfl c mem inFlight
      obtain ⟨k, call⟩ := List.mem_iff_getElem?.mp mem
      have dropped := loss w w' ran stepped rfl k c
      obtain rfl := Callers.lost_cases stepped
      exact dropped call inFlight (consistent.held call inFlight)
  · intro inTime
    constructor
    · intro w w' ran stepped k c c' call call' before finished
      have consistent := (consistent_exec ran distinct).1
      rcases consistent.returned_cases stepped call call' before finished with
        ⟨rfl, closed, same⟩ | gone
      · rw [same]
        exact consistent.none_of_answered call ((inTime w w' ran stepped).1 k c rfl call closed)
      · exact gone
    · rintro w w' ran stepped rfl k c call inFlight
      have none_waits := (inTime w w' ran stepped).2 rfl c
      obtain rfl := Callers.lost_cases stepped
      exact absurd inFlight (none_waits (List.mem_of_getElem? call))

end Runs

/-- **Every return leaves the table without the call, and the end of the I/O task drops all calls in
flight, iff** frames are sent while the task runs, and it ends when there is no call in flight. The
ids are taken to be distinct, as random ones are. -/
theorem calls_iff (fromReader : List UInt8 → Option (List UInt8)) (run : List CallStep)
    (distinct : (ids run).Nodup) :
    (∀ s past, s :: past <:+ run → ReturnsClean fromReader s past ∧ LossClean fromReader s past) ↔
      ∀ s past, s :: past <:+ run → SendsInTime fromReader s past := by
  have earlier : ∀ s past, s :: past <:+ run → (ids past).Nodup := by
    intro s past suffix
    exact distinct.sublist (((List.suffix_cons s past).trans suffix).sublist.filterMap _)
  constructor
  · intro clean s past suffix
    exact (clean_iff (earlier s past suffix)).mp (clean s past suffix)
  · intro inTime s past suffix
    exact (clean_iff (earlier s past suffix)).mpr (inTime s past suffix)

/-- A call that is answered. -/
def answeredRun : List CallStep :=
  [.wake 0, .receive (Message.new ⟨1, 5⟩ "reply"), .send 0, .start ⟨1, 3⟩ "app.list" []]

theorem calls_clean_of_answered : (ids answeredRun).Nodup ∧
    ∀ s past, s :: past <:+ answeredRun → ReturnsClean some s past ∧ LossClean some s past := by
  have distinct : (ids answeredRun).Nodup := by decide
  refine ⟨distinct, (calls_iff some answeredRun distinct).mpr ?_⟩
  have other : ∀ {s : CallStep} {past : List CallStep}, (∀ k, s ≠ .send k) → s ≠ .lost →
      SendsInTime some s past := by
    intro s past notSend notLost w w' _ _
    exact ⟨fun k _ same => absurd same (notSend k), fun same => absurd same notLost⟩
  refine forall_moments_cons.mpr ⟨other (by rintro k ⟨⟩) (by rintro ⟨⟩), ?_⟩
  refine forall_moments_cons.mpr ⟨other (by rintro k ⟨⟩) (by rintro ⟨⟩), ?_⟩
  refine forall_moments_cons.mpr ⟨?_, ?_⟩
  · rintro w w' ran -
    obtain rfl := Option.some.inj ran
    refine ⟨fun _ _ _ _ closed => ?_, by rintro ⟨⟩⟩
    cases closed
  · exact forall_moments_cons.mpr ⟨other (by rintro k ⟨⟩) (by rintro ⟨⟩), forall_moments_nil⟩

/-- A call in flight keeps its entry when the connection is lost, and a call that comes after that
leaves an entry behind. -/
theorem calls_left_behind :
    ¬ LossClean some .lost [.send 0, .start ⟨1, 3⟩ "app.list" []] ∧
      ¬ ReturnsClean some (.send 0) [.start ⟨1, 3⟩ "app.list" [], .lost] := by
  constructor
  · intro clean
    refine clean _ _ rfl rfl rfl 0 _ rfl ⟨rfl, ?_⟩ rfl
    rintro ⟨result, returned⟩
    cases returned
  · intro clean
    have gone := clean _ _ rfl rfl 0 _ _ rfl rfl (by rintro ⟨_, ⟨⟩⟩) ⟨_, rfl⟩
    cases gone

end Stardust
