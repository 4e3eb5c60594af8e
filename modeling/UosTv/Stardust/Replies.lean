import UosTv.Stardust.Calls

/-!
What the calls of a client come to (`Client::call` and the I/O task).

A call is found by the id of its frame, which the answer repeats. The messages that have the id of
a call come in at any moment, between the steps of this call and of all others, more than one of
them or none, and also after the call has given up. What answers a call is the first of them since
the call entered the table (`firstReply`); every later one goes to the receivers of the topics.
-/

namespace Stardust

open Rust

/-- What is put into the channel of a call for a message with its id. -/
def Client.reply (fromReader : List UInt8 → Option (List UInt8)) (msg : Message) : Response :=
  ⟨msg.id, match fromReader msg.params with
    | some result => .ok result
    | none => .error ("Failed to parse response: " ++ fromUtf8Lossy msg.params)⟩

theorem Client.receive_of_pending {fromReader : List UInt8 → Option (List UInt8)} {client : Client}
    {msg : Message} {k : Nat} (entry : client.pending.get msg.id = some k) :
    client.receive fromReader msg =
      ({ client with pending := client.pending.remove msg.id }, [.response k (reply fromReader msg)]) := by
  rw [receive, entry]
  rfl

/-! ### The first message for a call -/

section FirstReply

variable {id : Uuid} {run : List CallStep} {msg : Message}

/-- The first message with an id since the call with the id was put into the table, in a run with
the newest step first. -/
def firstReply (id : Uuid) : List CallStep → Option Message
  | [] => none
  | .receive msg :: run =>
    (firstReply id run).or (if msg.id = id ∧ id ∈ ids run then some msg else none)
  | _ :: run => firstReply id run

/-- Later messages do not change what came first. -/
theorem firstReply_cons (s : CallStep) (first : firstReply id run = some msg) :
    firstReply id (s :: run) = some msg := by
  cases s with
  | receive other => rw [firstReply, first, Option.some_or]
  | start stamp method params => exact first
  | send k => exact first
  | wake k => exact first
  | expire k => exact first
  | remove k => exact first
  | lost => exact first

theorem firstReply_append (later : List CallStep) (first : firstReply id run = some msg) :
    firstReply id (later ++ run) = some msg := by
  induction later with
  | nil => exact first
  | cons s later ih => exact firstReply_cons s ih

theorem firstReply_receive (unheard : firstReply id run = none) (known : id ∈ ids run)
    (same : msg.id = id) : firstReply id (.receive msg :: run) = some msg := by
  rw [firstReply, unheard, Option.none_or, if_pos ⟨same, known⟩]

theorem firstReply_receive_ne (other : msg.id ≠ id) :
    firstReply id (.receive msg :: run) = firstReply id run := by
  rw [firstReply, if_neg fun both => other both.1, Option.or_none]

/-- Before its call an id is not answered. -/
theorem firstReply_of_not_mem (unknown : id ∉ ids run) : firstReply id run = none := by
  induction run with
  | nil => rfl
  | cons s run ih =>
    rw [ids_cons, List.mem_append, not_or] at unknown
    have unheard := ih unknown.2
    cases s with
    | receive msg => rw [firstReply, unheard, Option.none_or, if_neg fun both => unknown.2 both.2]
    | start stamp method params => exact unheard
    | send k => exact unheard
    | wake k => exact unheard
    | expire k => exact unheard
    | remove k => exact unheard
    | lost => exact unheard

/-- It is a message of the run, and none with its id has come in between the call and it. -/
theorem firstReply_eq_some : firstReply id run = some msg ↔ ∃ later earlier,
    run = later ++ .receive msg :: earlier ∧ msg.id = id ∧ id ∈ ids earlier ∧
      firstReply id earlier = none := by
  constructor
  · intro first
    induction run with
    | nil => cases first
    | cons s run ih =>
      have further (first : firstReply id run = some msg) : ∃ later earlier,
          s :: run = later ++ .receive msg :: earlier ∧ msg.id = id ∧ id ∈ ids earlier ∧
            firstReply id earlier = none := by
        obtain ⟨later, earlier, rfl, facts⟩ := ih first
        exact ⟨s :: later, earlier, rfl, facts⟩
      cases s with
      | receive other =>
        cases before : firstReply id run with
        | some msg' =>
          rw [firstReply, before, Option.some_or] at first
          exact further (before.trans first)
        | none =>
          rw [firstReply, before, Option.none_or] at first
          split at first
          · rename_i both
            obtain rfl := Option.some.inj first
            exact ⟨[], run, rfl, both.1, both.2, before⟩
          · cases first
      | start stamp method params => exact further first
      | send k => exact further first
      | wake k => exact further first
      | expire k => exact further first
      | remove k => exact further first
      | lost => exact further first
  · rintro ⟨later, earlier, rfl, same, known, unheard⟩
    exact firstReply_append later (firstReply_receive unheard known same)

end FirstReply

/-! ### What a call has come to -/

/-- The frame of the call has been handed to the I/O task. -/
def Call.FrameSent (c : Call) : Prop :=
  match c.phase with
  | .inserted | .returned (.error .connectionClosed) => False
  | _ => True

section Invariant

variable (fromReader : List UInt8 → Option (List UInt8))

/-- The results a call can return: what the first message for it says, that none came in time, or
that the I/O task has ended. -/
inductive Outcome (closed : Bool) (run : List CallStep) (id : Uuid) :
    Except Error (List UInt8) → Prop where
  | answered {msg : Message} (first : firstReply id run = some msg) :
      Outcome closed run id ((Client.reply fromReader msg).result.mapError .broker)
  | timeout : Outcome closed run id (.error (.timeout id))
  | connectionClosed (ended : closed = true) : Outcome closed run id (.error .connectionClosed)

/-- What the table, the channel and the phase of a call say of the messages that have come in. -/
structure Followed (w : Callers) (run : List CallStep) (k : Nat) (c : Call) : Prop where
  unheard : w.Held k c → firstReply c.frame.id run = none
  answered {response : Response} : c.answer = some response →
    ∃ msg, firstReply c.frame.id run = some msg ∧ response = Client.reply fromReader msg
  missed : c.answer = none → ¬ w.Held k c → c.phase = .returned (.error (.timeout c.frame.id))
  outcome {result : Except Error (List UInt8)} : c.phase = .returned result →
    Outcome fromReader w.closed run c.frame.id result
  sent : c.frame ∈ w.sent ↔ c.FrameSent

end Invariant

variable {fromReader : List UInt8 → Option (List UInt8)} {w w' : Callers} {run : List CallStep}
  {k k' : Nat} {c c' : Call} {s : CallStep}

theorem Outcome.later {closed closed' : Bool} {id : Uuid} {result : Except Error (List UInt8)}
    (outcome : Outcome fromReader closed run id result) (still : closed = true → closed' = true) :
    Outcome fromReader closed' (s :: run) id result := by
  cases outcome with
  | answered first => exact .answered (firstReply_cons s first)
  | timeout => exact .timeout
  | connectionClosed ended => exact .connectionClosed (still ended)

namespace Followed

/-- A step that does not touch the call and leaves it in the table keeps what is known of it. -/
theorem keep (followed : Followed fromReader w run k c)
    (unheard : w'.Held k c → firstReply c.frame.id (s :: run) = none)
    (held : w.Held k c → w'.Held k c) (still : w.closed = true → w'.closed = true)
    (sent : c.frame ∈ w'.sent ↔ c.frame ∈ w.sent) : Followed fromReader w' (s :: run) k c where
  unheard := unheard
  answered response := by
    obtain ⟨msg, first, same⟩ := followed.answered response
    exact ⟨msg, firstReply_cons s first, same⟩
  missed unanswered gone := followed.missed unanswered fun now => gone (held now)
  outcome returned := (followed.outcome returned).later still
  sent := sent.trans followed.sent

/-- The call itself gets further, without a message. -/
theorem advance (followed : Followed fromReader w run k c) {phase : Phase} (unfinished : ¬ c.Finished)
    (quiet : firstReply c.frame.id (s :: run) = firstReply c.frame.id run)
    (held : w'.Held k c ↔ w.Held k c)
    (outcome : ∀ result, phase = .returned result →
      Outcome fromReader w'.closed (s :: run) c.frame.id result)
    (sent : c.frame ∈ w'.sent ↔ ({ c with phase } : Call).FrameSent) :
    Followed fromReader w' (s :: run) k { c with phase } where
  unheard now := quiet.trans (followed.unheard (held.mp now))
  answered response := by
    obtain ⟨msg, first, same⟩ := followed.answered response
    exact ⟨msg, quiet.trans first, same⟩
  missed unanswered gone :=
    absurd ⟨_, followed.missed unanswered fun now => gone (held.mpr now)⟩ unfinished
  outcome returned := outcome _ returned
  sent := sent

end Followed

/-! ### One step -/

namespace Callers

theorem phase_of_send (sent : w.send k c = some w') : c.phase = .inserted := by
  cases phase : c.phase with
  | inserted => rfl
  | waiting => simp [send, phase] at sent
  | expired => simp [send, phase] at sent
  | returned result => simp [send, phase] at sent

theorem phase_of_expire (expired : w.expire k c = some w') : c.phase = .waiting := by
  cases phase : c.phase with
  | waiting => rfl
  | inserted => simp [expire, phase] at expired
  | expired => simp [expire, phase] at expired
  | returned result => simp [expire, phase] at expired

theorem phase_of_remove (removed : w.remove k c = some w') : c.phase = .expired := by
  cases phase : c.phase with
  | expired => rfl
  | inserted => simp [remove, phase] at removed
  | waiting => simp [remove, phase] at removed
  | returned result => simp [remove, phase] at removed

/-- A call is woken by its response: the channel of a call that waits is not dropped. -/
theorem wake_answered (followed : Followed fromReader w run k c) (woken : w.wake k c = some w') :
    ∃ response, c.phase = .waiting ∧ c.answer = some response ∧
      w' = w.setPhase k c (.returned (response.result.mapError .broker)) := by
  cases phase : c.phase with
  | waiting =>
    cases answer : c.answer with
    | some response =>
      rw [wake, phase, answer] at woken
      exact ⟨response, rfl, rfl, (Option.some.inj woken).symm⟩
    | none =>
      rw [wake, phase, answer] at woken
      by_cases held : w.Held k c
      · simp [held] at woken
      · cases phase.symm.trans (followed.missed answer held)
  | inserted => simp [wake, phase] at woken
  | expired => simp [wake, phase] at woken
  | returned result => simp [wake, phase] at woken

/-- What is known of all calls after a run. -/
structure Tracked (fromReader : List UInt8 → Option (List UInt8)) (w : Callers)
    (run : List CallStep) : Prop where
  followed {k : Nat} {c : Call} (call : w.calls[k]? = some c) : Followed fromReader w run k c
  known : ∀ frame ∈ w.sent, frame.id ∈ ids run
  once : w.sent.Nodup

namespace Tracked

/-- The other calls when one of them gets further. -/
theorem others (tracked : w.Tracked fromReader run) (consistent : w.Consistent)
    (taken : w.calls[k']? = some c') {done : Call} (calls : w'.calls = w.calls.set k' done)
    (done_followed : Followed fromReader w' (s :: run) k' done)
    (quiet : ∀ id, firstReply id (s :: run) = firstReply id run)
    (client : ∀ id, id ≠ c'.frame.id → w'.client.pending.get id = w.client.pending.get id)
    (still : w.closed = true → w'.closed = true)
    (sent : ∀ frame : Message, frame.id ≠ c'.frame.id → (frame ∈ w'.sent ↔ frame ∈ w.sent))
    (call : w'.calls[k]? = some c) : Followed fromReader w' (s :: run) k c := by
  rw [calls] at call
  by_cases here : k' = k
  · subst here
    have below := (List.getElem?_eq_some_iff.mp taken).1
    obtain rfl := Option.some.inj ((List.getElem?_set_self below).symm.trans call)
    exact done_followed
  · rw [List.getElem?_set_ne here] at call
    have apart : c.frame.id ≠ c'.frame.id := fun same =>
      here (consistent.same_call taken call same.symm)
    have held : w'.Held k c ↔ w.Held k c := by rw [Held, Held, client _ apart]
    have followed := tracked.followed call
    exact followed.keep (fun now => (quiet _).trans (followed.unheard (held.mp now))) held.mpr still
      (sent _ apart)

theorem start (tracked : w.Tracked fromReader run) {stamp : Stamp} {method : String}
    {params : List UInt8} (fresh : stamp.id ∉ ids run)
    (calls : ∀ id, id ∈ w.calls.map (·.frame.id) ↔ id ∈ ids run)
    (stepped : w.step fromReader (.start stamp method params) = some w') :
    w'.Tracked fromReader (.start stamp method params :: run) where
  followed {k c} call := by
    obtain rfl := Option.some.inj stepped
    by_cases below : k < w.calls.length
    · replace call := (List.getElem?_append_left below).symm.trans call
      have followed := tracked.followed call
      have apart : c.frame.id ≠ stamp.id := by
        intro same
        exact fresh (same ▸ (calls _).mp (List.mem_map_of_mem (List.mem_of_getElem? call)))
      have same : (w.client.pending.insert stamp.id w.calls.length).get c.frame.id =
          w.client.pending.get c.frame.id := (HashMap.get_insert _ _ _ _).trans (if_neg apart)
      exact followed.keep (fun now => followed.unheard (same.symm.trans now)) same.trans id Iff.rfl
    · rw [List.getElem?_append_right (Nat.le_of_not_lt below), List.getElem?_singleton] at call
      split at call
      · rename_i last
        cases call
        obtain rfl : k = w.calls.length := by omega
        exact {
          unheard := fun _ => (firstReply_of_not_mem fresh : firstReply stamp.id run = none)
          answered := fun response => by cases response
          missed := fun _ gone => absurd ((HashMap.get_insert _ _ _ _).trans (if_pos rfl)) gone
          outcome := fun returned => by cases returned
          sent := iff_of_false (fun mem => fresh (tracked.known _ mem)) id }
      · cases call
  known frame mem := by
    obtain rfl := Option.some.inj stepped
    exact List.mem_cons_of_mem _ (tracked.known frame mem)
  once := by
    obtain rfl := Option.some.inj stepped
    exact tracked.once

/-- A message that no call waits for goes to the receivers. -/
theorem receive_message (tracked : w.Tracked fromReader run) {msg : Message}
    (unknown : w.client.pending.get msg.id = none)
    (stepped : w.step fromReader (.receive msg) = some w') :
    w'.Tracked fromReader (.receive msg :: run) := by
  obtain rfl := receive_cases stepped
  have client : (w.client.receive fromReader msg).1 = w.client := by rw [Client.receive, unknown]
  have calls : (w.client.receive fromReader msg).2.foldl answerCall w.calls = w.calls := by
    rw [Client.receive, unknown]
    apply Consistent.foldl_message
    intro d mem
    obtain ⟨e, -, mem⟩ := List.mem_flatMap.mp mem
    split at mem
    · obtain ⟨rx, -, rfl⟩ := List.mem_map.mp mem
      exact ⟨rx, msg, rfl⟩
    · cases mem
  rw [client, calls]
  refine ⟨fun {k c} call => ?_, tracked.known, tracked.once⟩
  have followed := tracked.followed call
  refine followed.keep (fun held => ?_) id id Iff.rfl
  have held : w.client.pending.get c.frame.id = some k := held
  rw [firstReply_receive_ne]
  · exact followed.unheard held
  · intro same
    rw [← same, unknown] at held
    cases held

/-- A message that has the id of a call in the table is its answer. -/
theorem receive_response (tracked : w.Tracked fromReader run) (consistent : w.Consistent)
    (calls : ∀ id, id ∈ w.calls.map (·.frame.id) ↔ id ∈ ids run) {msg : Message}
    (entry : w.client.pending.get msg.id = some k)
    (stepped : w.step fromReader (.receive msg) = some w') :
    w'.Tracked fromReader (.receive msg :: run) := by
  obtain rfl := receive_cases stepped
  rw [Client.receive_of_pending entry]
  obtain ⟨c, call, same, -⟩ := consistent.owner entry
  have followed := tracked.followed call
  have first : firstReply c.frame.id (.receive msg :: run) = some msg := by
    apply firstReply_receive
    · exact followed.unheard ((congrArg w.client.pending.get same).trans entry)
    · exact (calls _).mp (List.mem_map_of_mem (List.mem_of_getElem? call))
    · exact same.symm
  have gone (id : Uuid) : (w.client.pending.remove msg.id).get id =
      if id = msg.id then none else w.client.pending.get id := HashMap.get_remove _ _ _
  refine ⟨fun {k' c'} call' => ?_, tracked.known, tracked.once⟩
  change (w.calls.modify k _)[k']? = some c' at call'
  rw [List.modify_eq_set_getElem?, call] at call'
  by_cases here : k = k'
  · subst here
    have below := (List.getElem?_eq_some_iff.mp call).1
    obtain rfl := Option.some.inj ((List.getElem?_set_self below).symm.trans call')
    exact {
      unheard := fun held => by
        have held := (gone _).symm.trans held
        rw [if_pos same] at held
        cases held
      answered := fun response => ⟨msg, first, (Option.some.inj response).symm⟩
      missed := fun unanswered => by cases unanswered
      outcome := fun returned => (followed.outcome returned).later id
      sent := followed.sent }
  · replace call' := (List.getElem?_set_ne here).symm.trans call'
    have apart : c'.frame.id ≠ msg.id := fun same' =>
      here (consistent.same_call call call' (same.trans same'.symm))
    have held : (w.client.pending.remove msg.id).get c'.frame.id =
        w.client.pending.get c'.frame.id := (gone _).trans (if_neg apart)
    have followed' := tracked.followed call'
    refine followed'.keep (fun now => ?_) held.trans id Iff.rfl
    rw [firstReply_receive_ne apart.symm]
    exact followed'.unheard (held.symm.trans now)

theorem send (tracked : w.Tracked fromReader run) (consistent : w.Consistent)
    (calls : ∀ id, id ∈ w.calls.map (·.frame.id) ↔ id ∈ ids run) (taken : w.calls[k]? = some c)
    (sent : w.send k c = some w') : w'.Tracked fromReader (.send k :: run) := by
  have followed := tracked.followed taken
  have inserted := phase_of_send sent
  have unsent : c.frame ∉ w.sent := fun mem => by
    have started := followed.sent.mp mem
    rw [Call.FrameSent, inserted] at started
    exact started
  obtain ⟨unfinished, ⟨closed, rfl⟩ | ⟨-, rfl⟩⟩ := send_cases sent
  · refine ⟨tracked.others consistent taken rfl ?_ (fun _ => rfl) (fun _ _ => rfl) id
      (fun _ _ => Iff.rfl), tracked.known, tracked.once⟩
    refine followed.advance unfinished rfl Iff.rfl ?_ (iff_of_false unsent id)
    rintro result ⟨⟩
    exact .connectionClosed closed
  · refine ⟨tracked.others consistent taken rfl ?_ (fun _ => rfl) (fun _ _ => rfl) id ?_, ?_, ?_⟩
    · refine followed.advance unfinished rfl Iff.rfl (by rintro result ⟨⟩) ?_
      exact iff_of_true (List.mem_append_right _ (List.mem_singleton_self _)) trivial
    · intro frame apart
      change frame ∈ w.sent ++ [c.frame] ↔ frame ∈ w.sent
      rw [List.mem_append, List.mem_singleton, or_iff_left fun same => apart (congrArg Message.id same)]
    · intro frame mem
      rcases List.mem_append.mp mem with earlier | now
      · exact tracked.known frame earlier
      · rw [List.mem_singleton.mp now]
        exact (calls _).mp (List.mem_map_of_mem (List.mem_of_getElem? taken))
    · refine List.nodup_append.mpr ⟨tracked.once, List.nodup_singleton _, ?_⟩
      rintro frame mem frame' last rfl
      exact unsent (List.mem_singleton.mp last ▸ mem)

theorem wake (tracked : w.Tracked fromReader run) (consistent : w.Consistent)
    (taken : w.calls[k]? = some c) (woken : w.wake k c = some w') :
    w'.Tracked fromReader (.wake k :: run) := by
  have followed := tracked.followed taken
  obtain ⟨response, waiting, answer, rfl⟩ := wake_answered followed woken
  refine ⟨tracked.others consistent taken rfl ?_ (fun _ => rfl) (fun _ _ => rfl) id
    (fun _ _ => Iff.rfl), tracked.known, tracked.once⟩
  obtain ⟨msg, first, rfl⟩ := followed.answered answer
  have sent : c.FrameSent := by
    rw [Call.FrameSent, waiting]
    trivial
  refine followed.advance (c.not_finished waiting (by rintro _ ⟨⟩)) rfl Iff.rfl ?_
    (iff_of_true (followed.sent.mpr sent) ?_)
  · rintro result ⟨⟩
    exact .answered first
  · rw [Call.FrameSent]
    cases (Client.reply fromReader msg).result <;> trivial

theorem expire (tracked : w.Tracked fromReader run) (consistent : w.Consistent)
    (taken : w.calls[k]? = some c) (expired : w.expire k c = some w') :
    w'.Tracked fromReader (.expire k :: run) := by
  have followed := tracked.followed taken
  have waiting := phase_of_expire expired
  obtain ⟨unfinished, rfl⟩ := expire_cases expired
  refine ⟨tracked.others consistent taken rfl ?_ (fun _ => rfl) (fun _ _ => rfl) id
    (fun _ _ => Iff.rfl), tracked.known, tracked.once⟩
  have sent : c.FrameSent := by
    rw [Call.FrameSent, waiting]
    trivial
  exact followed.advance unfinished rfl Iff.rfl (by rintro result ⟨⟩)
    (iff_of_true (followed.sent.mpr sent) trivial)

theorem remove (tracked : w.Tracked fromReader run) (consistent : w.Consistent)
    (taken : w.calls[k]? = some c) (removed : w.remove k c = some w') :
    w'.Tracked fromReader (.remove k :: run) := by
  have followed := tracked.followed taken
  have sent : c.FrameSent := by
    rw [Call.FrameSent, phase_of_remove removed]
    trivial
  obtain ⟨-, rfl⟩ := remove_cases removed
  have gone (id : Uuid) : (w.client.pending.remove c.frame.id).get id =
      if id = c.frame.id then none else w.client.pending.get id := HashMap.get_remove _ _ _
  refine ⟨tracked.others consistent taken rfl ?_ (fun _ => rfl)
    (fun id apart => (gone id).trans (if_neg apart)) id (fun _ _ => Iff.rfl), tracked.known,
    tracked.once⟩
  exact {
    unheard := fun held => by
      have held := (gone _).symm.trans held
      rw [if_pos rfl] at held
      cases held
    answered := followed.answered
    missed := fun _ _ => rfl
    outcome := by
      rintro result ⟨⟩
      exact .timeout
    sent := iff_of_true (followed.sent.mpr sent) trivial }

theorem step (tracked : w.Tracked fromReader run) (consistent : w.Consistent)
    (calls : ∀ id, id ∈ w.calls.map (·.frame.id) ↔ id ∈ ids run) (fresh : ∀ id ∈ ids [s], id ∉ ids run)
    (stepped : w.step fromReader s = some w') : w'.Tracked fromReader (s :: run) := by
  cases s with
  | start stamp method params =>
    exact tracked.start (fresh stamp.id (List.mem_singleton_self _)) calls stepped
  | receive msg =>
    cases entry : w.client.pending.get msg.id with
    | none => exact tracked.receive_message entry stepped
    | some k => exact tracked.receive_response consistent calls entry stepped
  | lost =>
    obtain rfl := lost_cases stepped
    refine ⟨fun call => ?_, tracked.known, tracked.once⟩
    have followed := tracked.followed call
    exact followed.keep followed.unheard id (fun _ => rfl) Iff.rfl
  | send k =>
    obtain ⟨c, call, sent⟩ := Option.bind_eq_some_iff.mp stepped
    exact tracked.send consistent calls call sent
  | wake k =>
    obtain ⟨c, call, woken⟩ := Option.bind_eq_some_iff.mp stepped
    exact tracked.wake consistent call woken
  | expire k =>
    obtain ⟨c, call, expired⟩ := Option.bind_eq_some_iff.mp stepped
    exact tracked.expire consistent call expired
  | remove k =>
    obtain ⟨c, call, removed⟩ := Option.bind_eq_some_iff.mp stepped
    exact tracked.remove consistent call removed

end Tracked

/-- A call that has returned takes no more steps. -/
theorem step_finished {result : Except Error (List UInt8)} (call : w.calls[k]? = some c)
    (returned : c.phase = .returned result) (stepped : w.step fromReader s = some w') :
    ∃ c', w'.calls[k]? = some c' ∧ c'.phase = .returned result := by
  have below := (List.getElem?_eq_some_iff.mp call).1
  have set {j : Nat} {d : Call} {phase : Phase} (taken : w.calls[j]? = some d)
      (unfinished : ¬ d.Finished) : (w.setPhase j d phase).calls[k]? = some c := by
    refine (List.getElem?_set_ne ?_).trans call
    rintro rfl
    obtain rfl := Option.some.inj (taken.symm.trans call)
    exact unfinished ⟨result, returned⟩
  cases s with
  | start stamp method params =>
    obtain rfl := Option.some.inj stepped
    exact ⟨c, (List.getElem?_append_left below).trans call, returned⟩
  | receive msg =>
    obtain rfl := receive_cases stepped
    have length : ((w.client.receive fromReader msg).2.foldl answerCall w.calls).length =
        w.calls.length := by
      have ids := @map_foldl (w.client.receive fromReader msg).2 w.calls
      simpa only [List.length_map] using congrArg List.length ids
    have call' := List.getElem?_eq_getElem (length.symm ▸ below)
    exact ⟨_, call', (Consistent.phase_foldl call call').trans returned⟩
  | lost =>
    obtain rfl := lost_cases stepped
    exact ⟨c, call, returned⟩
  | send j =>
    obtain ⟨d, taken, sent⟩ := Option.bind_eq_some_iff.mp stepped
    obtain ⟨unfinished, ⟨-, rfl⟩ | ⟨-, rfl⟩⟩ := send_cases sent
    · exact ⟨c, set taken unfinished, returned⟩
    · exact ⟨c, set taken unfinished, returned⟩
  | wake j =>
    obtain ⟨d, taken, woken⟩ := Option.bind_eq_some_iff.mp stepped
    obtain ⟨unfinished, -, _, rfl⟩ := wake_cases woken
    exact ⟨c, set taken unfinished, returned⟩
  | expire j =>
    obtain ⟨d, taken, expired⟩ := Option.bind_eq_some_iff.mp stepped
    obtain ⟨unfinished, rfl⟩ := expire_cases expired
    exact ⟨c, set taken unfinished, returned⟩
  | remove j =>
    obtain ⟨d, taken, removed⟩ := Option.bind_eq_some_iff.mp stepped
    obtain ⟨unfinished, rfl⟩ := remove_cases removed
    exact ⟨c, set taken unfinished, returned⟩

/-! ### Runs -/

theorem tracked_exec (ran : exec fromReader run = some w) (distinct : (ids run).Nodup) :
    w.Tracked fromReader run := by
  induction run generalizing w with
  | nil =>
    obtain rfl := Option.some.inj ran
    refine ⟨fun call => ?_, fun frame mem => ?_, List.nodup_nil⟩
    · cases call
    · cases mem
  | cons s run ih =>
    obtain ⟨before, earlier, stepped⟩ := Option.bind_eq_some_iff.mp ran
    rw [ids_cons, List.nodup_append] at distinct
    obtain ⟨-, rest, apart⟩ := distinct
    obtain ⟨consistent, calls⟩ := consistent_exec earlier rest
    exact (ih earlier rest).step consistent calls (fun id new old => apart id new id old rfl) stepped

theorem exec_finished {later : List CallStep} {result : Except Error (List UInt8)}
    (ran : exec fromReader run = some w) (call : w.calls[k]? = some c)
    (returned : c.phase = .returned result) (further : exec fromReader (later ++ run) = some w') :
    ∃ c', w'.calls[k]? = some c' ∧ c'.phase = .returned result := by
  induction later generalizing w' with
  | nil =>
    obtain rfl := Option.some.inj (ran.symm.trans further)
    exact ⟨c, call, returned⟩
  | cons s later ih =>
    obtain ⟨before, earlier, stepped⟩ := Option.bind_eq_some_iff.mp further
    obtain ⟨c', call', returned'⟩ := ih earlier
    exact step_finished call' returned' stepped

end Callers

/-- **Every call gets the answer to its own frame.** However the steps of the calls and the messages
are interleaved, what a call finds in its channel is read from the first message with its id since
it entered the table, and a call that such a message does not reach has timed out. A call returns
what that message says, that its time is up, or, after the I/O task has ended, that the connection is
closed; it returns nothing else, and once. Its frame is sent at most once, and it is sent unless the
connection was closed. -/
theorem calls_answered (fromReader : List UInt8 → Option (List UInt8)) (run : List CallStep)
    (distinct : (ids run).Nodup) {w : Callers} (ran : Callers.exec fromReader run = some w) :
    w.sent.Nodup ∧ ∀ (k : Nat) (c : Call), w.calls[k]? = some c →
      (∀ response, c.answer = some response → ∃ msg later earlier,
        run = later ++ .receive msg :: earlier ∧ response = Client.reply fromReader msg ∧
          msg.id = c.frame.id ∧ c.frame.id ∈ ids earlier ∧ firstReply c.frame.id earlier = none) ∧
      (∀ msg, firstReply c.frame.id run = some msg → c.answer = none →
        c.phase = .returned (.error (.timeout c.frame.id))) ∧
      (∀ result, c.phase = .returned result → Outcome fromReader w.closed run c.frame.id result ∧
        ∀ later w', Callers.exec fromReader (later ++ run) = some w' →
          ∃ c', w'.calls[k]? = some c' ∧ c'.phase = .returned result) ∧
      (c.frame ∈ w.sent ↔ c.FrameSent) := by
  have tracked := Callers.tracked_exec ran distinct
  refine ⟨tracked.once, fun k c call => ?_⟩
  have followed := tracked.followed call
  refine ⟨fun response answer => ?_, fun msg first unanswered => ?_, fun result returned => ?_,
    followed.sent⟩
  · obtain ⟨msg, first, same⟩ := followed.answered answer
    obtain ⟨later, earlier, split, facts⟩ := firstReply_eq_some.mp first
    exact ⟨msg, later, earlier, split, same, facts⟩
  · apply followed.missed unanswered
    intro held
    rw [followed.unheard held] at first
    cases first
  · exact ⟨followed.outcome returned, fun later w' => Callers.exec_finished ran call returned⟩

/-- Two calls whose answers come in the other order, and an answer that comes twice. -/
def crossedRun : List CallStep :=
  [.receive (Message.new ⟨1, 7⟩ "again"), .wake 0, .wake 1, .receive (Message.new ⟨1, 6⟩ "first"),
    .receive (Message.new ⟨2, 5⟩ "second"), .send 1, .start ⟨2, 4⟩ "app.list" [], .send 0,
    .start ⟨1, 3⟩ "app.list" []]

theorem calls_answered_crossed : ∃ w, Callers.exec some crossedRun = some w ∧ w.sent.Nodup ∧
    ∀ (k : Nat) (c : Call), w.calls[k]? = some c → (c.frame ∈ w.sent ↔ c.FrameSent) := by
  obtain ⟨w, ran⟩ : ∃ w, Callers.exec some crossedRun = some w := ⟨_, rfl⟩
  have answered := calls_answered some crossedRun (by decide) ran
  exact ⟨w, ran, answered.1, fun k c call => (answered.2 k c call).2.2.2⟩

end Stardust
