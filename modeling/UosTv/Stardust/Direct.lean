import UosTv.Stardust.Routing

/-!
Direct subscriptions: the WebSocket bridge's entries in the broker's tables.

A direct subscription is stored under a synthetic id, `connections.len() + 100000`. The
number of connections goes down as well as up, so an id can be picked twice, and it can
be the id of a Unix connection. `Spaced` is the condition on a history under which neither
happens; then each direct subscription has an id of its own, and its channel gets the
messages of its topic and no others (`direct_subscription_isolated`).
-/

namespace Stardust

open Past Rust

variable {h g : History} {e : Event} {w : WsId} {c : ConnId} {t : String} {tx : Sender}

/-- WebSocket client `w` subscribed to `t` over `tx` when `g` had happened. -/
def Made (h g : History) (w : WsId) (t : String) (tx : Sender) : Prop :=
  .ws w (.subscribeDirect t tx) :: g <:+ h

theorem made_cons :
    Made (e :: h) g w t tx ↔ e = .ws w (.subscribeDirect t tx) ∧ g = h ∨ Made h g w t tx := by
  unfold Made
  rw [List.suffix_cons_iff, List.cons.injEq, eq_comm]

theorem Made.cons (made : Made h g w t tx) : Made (e :: h) g w t tx := made_cons.mpr (.inr made)

/-- The channel of a direct subscription is a WebSocket client's. -/
theorem Valid.made_forward (valid : Valid h) (made : Made h g w t tx) : ∃ k, tx = .forward w k := by
  obtain ⟨⟨k, rfl, -⟩, -⟩ := valid.admissible made
  exact ⟨k, rfl⟩

/-- A direct subscription is known by its channel. -/
theorem Valid.made_unique (valid : Valid h) (made : Made h g w t tx) {g' : History} {w' : WsId}
    {t' : String} (made' : Made h g' w' t' tx) : g = g' ∧ t = t' := by
  have fresh : ∀ {g g' : History} {w w' : WsId} {t t' : String}, Made h g w t tx →
      Made h g' w' t' tx → ¬ .ws w' (.subscribeDirect t' tx) :: g' <:+ g := by
    intro g g' w w' t t' made made' older
    obtain ⟨⟨k, rfl, new⟩, -⟩ := valid.admissible made
    obtain ⟨k', same⟩ := valid.made_forward made'
    obtain ⟨rfl, rfl⟩ := Sender.forward.inj same
    exact new t' (older.subset List.mem_cons_self)
  rcases suffix_or_suffix made made' with ⟨same, rfl⟩ | older | older
  · cases same
    exact ⟨rfl, rfl⟩
  · exact absurd older (fresh made' made)
  · exact absurd older (fresh made made')

/-- Every channel in the table stands under one id: a channel is stored when its connection
opens or when it is subscribed, and neither happens twice. -/
theorem Valid.owns_of_stored (valid : Valid h)
    (stored : (tables h).connections.get c = some tx) : (tables h).Owns c tx := by
  intro c'
  refine ⟨fun stored' => ?_, fun same => same ▸ stored⟩
  have origin : ∀ {c}, (tables h).connections.get c = some tx → tx = .conn c ∨
      ∃ g w t, Made h g w t tx ∧ (tables g).syntheticId = c := by
    intro c stored
    obtain ⟨e, g, suffix, ⟨-, own⟩ | ⟨cmd, isCmd, stores⟩⟩ :=
      (connections_iff.mp stored).exists_start
    · exact .inl own
    · cases cmd with
      | subscribeDirect topic tx' =>
        obtain ⟨same, rfl⟩ := stores
        cases e with
        | ws w cmd =>
          obtain rfl : cmd = _ := Option.some.inj isCmd
          exact .inr ⟨g, w, topic, suffix, same⟩
        | unix cmd =>
          obtain rfl : cmd = _ := Option.some.inj isCmd
          have adm := valid.admissible suffix
          simp [Admissible, BrokerCmd.sender] at adm
        | opened c => cases isCmd
        | wsGone w => cases isCmd
      | _ => cases stores
  rcases origin stored with rfl | ⟨g, w, t, made, same⟩
  · exact (valid.connections_conn stored').1
  · rcases origin stored' with rfl | ⟨g', w', t', made', same'⟩
    · exact (valid.connections_conn stored).1.symm
    · rw [← same, ← same', (valid.made_unique made made').1]

/-! ### Counting connections -/

/-- Openings and direct subscriptions, less unregistrations. -/
def population : History → Nat
  | [] => 0
  | .opened _ :: h => population h + 1
  | .ws _ (.subscribeDirect _ _) :: h => population h + 1
  | .unix (.unregister _) :: h => population h - 1
  | _ :: h => population h

/-- `c` is the id that belongs to the direct subscription of `tx` to `t`: the population
at which it was made, plus 100000. -/
def DirectId (h : History) (c : ConnId) (t : String) (tx : Sender) : Prop :=
  ∃ g w, Made h g w t tx ∧ c = population g + 100000

theorem directId_subscribeDirect {t' : String} {tx' : Sender} :
    DirectId (.ws w (.subscribeDirect t' tx') :: h) c t tx ↔
      (t' = t ∧ tx' = tx) ∧ c = population h + 100000 ∨ DirectId h c t tx := by
  unfold DirectId
  constructor
  · rintro ⟨g, w', made, rfl⟩
    rcases made_cons.mp made with ⟨event, rfl⟩ | made
    · cases event
      exact .inl ⟨⟨rfl, rfl⟩, rfl⟩
    · exact .inr ⟨g, w', made, rfl⟩
  · rintro (⟨⟨rfl, rfl⟩, rfl⟩ | ⟨g, w', made, same⟩)
    · exact ⟨h, w, List.suffix_refl _, rfl⟩
    · exact ⟨g, w', made.cons, same⟩

theorem DirectId.cons (direct : DirectId h c t tx) : DirectId (e :: h) c t tx := by
  obtain ⟨g, w, made, same⟩ := direct
  exact ⟨g, w, made.cons, same⟩

theorem directId_cons (other : ∀ w t tx, e ≠ .ws w (.subscribeDirect t tx)) :
    DirectId (e :: h) c t tx ↔ DirectId h c t tx := by
  simp [DirectId, made_cons, other]

/-- A direct subscription is made at a population at which none was made before, and the
id that goes with it is no live connection's; a connection that opens takes no id of a
direct subscription. -/
def Event.Spaced (h : History) : Event → Prop
  | .opened c => ∀ g w t tx, Made h g w t tx → c ≠ population g + 100000
  | .ws _ (.subscribeDirect _ _) =>
    (∀ g w t tx, Made h g w t tx → population g ≠ population h) ∧
      (∀ c, Live h c → c ≠ population h + 100000) ∧ population h + 100000 ≠ u64Max
  | _ => True

/-- Every event of the history met the condition when it happened. -/
def Spaced : History → Prop
  | [] => True
  | e :: h => e.Spaced h ∧ Spaced h

theorem Spaced.suffix (spaced : Spaced h) (suffix : g <:+ h) : Spaced g := by
  induction h with
  | nil =>
    rw [List.suffix_nil.mp suffix]
    trivial
  | cons e h ih =>
    rcases List.suffix_cons_iff.mp suffix with rfl | suffix
    · exact spaced
    · exact ih spaced.2 suffix

/-- Direct subscriptions of a spaced history were made at different populations. -/
theorem Spaced.made_unique (spaced : Spaced h) (made : Made h g w t tx) {g' : History} {w' : WsId}
    {t' : String} {tx' : Sender} (made' : Made h g' w' t' tx')
    (same : population g = population g') : t = t' ∧ tx = tx' := by
  rcases suffix_or_suffix made made' with ⟨event, -⟩ | older | older
  · cases event
    exact ⟨rfl, rfl⟩
  · exact absurd same ((spaced.suffix made').1.1 g w t tx older)
  · exact absurd same.symm ((spaced.suffix made).1.1 g' w' t' tx' older)

/-- The tables of a history in which no id is used twice. -/
structure Separate (h : History) : Prop where
  len : (tables h).connections.len = population h
  stored : ∀ c tx, (tables h).connections.get c = some tx ↔
    tx = .conn c ∧ Live h c ∨ ∃ t, DirectId h c t tx
  subscribed : ∀ c t, (tables h).Subscribed c t → Live h c ∨ ∃ tx, DirectId h c t tx
  direct : ∀ c t tx, DirectId h c t tx → (tables h).Subscribed c t
  services : ∀ n c, (tables h).services.get n = some c → Live h c ∨ c = u64Max

namespace Separate

/-- No live Unix connection has the id of a direct subscription. -/
theorem not_live (sep : Separate h) (valid : Valid h) (direct : DirectId h c t tx) :
    ¬ Live h c := by
  intro live
  have unix := (sep.stored c _).mpr (.inl ⟨rfl, live⟩)
  have stored := (sep.stored c tx).mpr (.inr ⟨t, direct⟩)
  obtain ⟨g, w, made, -⟩ := direct
  obtain ⟨k, rfl⟩ := valid.made_forward made
  rw [unix] at stored
  cases stored

/-- The next synthetic id is new exactly when the condition on direct subscriptions
holds: `Spaced` asks no more than it must. -/
theorem syntheticId_new_iff (sep : Separate h) :
    (tables h).connections.get (tables h).syntheticId = none ↔
      (∀ g w t tx, Made h g w t tx → population g ≠ population h) ∧
        ∀ c, Live h c → c ≠ population h + 100000 := by
  rw [Option.eq_none_iff_forall_ne_some, BrokerState.syntheticId, sep.len]
  constructor
  · intro absent
    refine ⟨fun g w t tx made same => ?_, fun c live same => ?_⟩
    · exact absent tx ((sep.stored _ tx).mpr (.inr ⟨t, g, w, made, by rw [same]⟩))
    · exact absent (.conn c) ((sep.stored _ _).mpr (.inl ⟨by rw [same], same ▸ live⟩))
  · rintro ⟨populations, lives⟩ tx stored
    rcases (sep.stored _ tx).mp stored with ⟨-, live⟩ | ⟨t, g, w, made, same⟩
    · exact lives _ live rfl
    · exact populations g w t tx made (Nat.add_right_cancel same).symm

/-! One more event keeps the tables separate, field by field. -/

section Cons

variable (sep : Separate h) (valid : Valid (e :: h)) (spaced : e.Spaced h)
include sep valid spaced

/-- An opening finds its id free. -/
theorem get_opened (opened : e = .opened c) : (tables h).connections.get c = none := by
  subst opened
  rw [Option.eq_none_iff_forall_ne_some]
  intro tx stored
  rcases (sep.stored c tx).mp stored with ⟨-, live⟩ | ⟨t, g, w, made, same⟩
  · exact valid.1 live.1
  · exact spaced g w t tx made same

/-- A direct subscription finds its id free. -/
theorem get_syntheticId (direct : e = .ws w (.subscribeDirect t tx)) :
    (tables h).connections.get (tables h).syntheticId = none := by
  subst direct
  exact sep.syntheticId_new_iff.mpr ⟨spaced.1, spaced.2.1⟩

theorem len_cons : (tables (e :: h)).connections.len = population (e :: h) := by
  cases e with
  | opened c =>
    have free := sep.get_opened valid spaced rfl
    simp only [tables, Event.step, population]
    rw [HashMap.len_insert_of_get_eq_none free, sep.len]
  | wsGone w => exact sep.len
  | unix cmd =>
    cases cmd with
    | unregister c =>
      obtain ⟨c', same, live⟩ := valid.1
      obtain rfl : c = c' := Option.some.inj same
      have stored := (sep.stored c _).mpr (.inl ⟨rfl, live⟩)
      have fewer := HashMap.len_remove_of_get_eq_some stored
      simp only [tables, Event.step, runBroker, population]
      rw [← sep.len, ← fewer, Nat.add_sub_cancel]
    | subscribeDirect t tx => simp [Valid, Admissible, BrokerCmd.sender] at valid
    | _ => exact sep.len
  | ws w cmd =>
    cases cmd with
    | subscribeDirect t tx =>
      have free := sep.get_syntheticId valid spaced rfl
      simp only [tables, Event.step, runBroker, population]
      rw [HashMap.len_insert_of_get_eq_none free, sep.len]
    | unregister c => exact valid.1.1.elim
    | _ => exact sep.len

theorem stored_cons (c : ConnId) (tx : Sender) :
    (tables (e :: h)).connections.get c = some tx ↔
      tx = .conn c ∧ Live (e :: h) c ∨ ∃ t, DirectId (e :: h) c t tx := by
  rw [connections_cons, sep.stored c tx]
  cases e with
  | opened o =>
    by_cases same : c = o
    · subst same
      have apart : ∀ t, ¬ DirectId h c t tx := by
        rintro t ⟨g, w, made, same⟩
        exact spaced g w t tx made same
      simp [Event.Stores, Event.cmd, live_opened valid, directId_cons, apart]
    · simp [Event.Stores, Event.cmd, live_opened valid, directId_cons, same, Ne.symm same]
  | wsGone w => simp [Event.Stores, Event.cmd, live_cons, directId_cons]
  | unix cmd =>
    cases cmd with
    | unregister o =>
      by_cases same : c = o
      · subst same
        obtain ⟨o, sender, live⟩ := valid.1
        obtain rfl : c = o := Option.some.inj sender
        have apart : ∀ t, ¬ DirectId h c t tx := fun t direct => sep.not_live valid.2 direct live
        simp [Event.Stores, Event.cmd, BrokerCmd.Stores, live_unregister, directId_cons, apart]
      · simp [Event.Stores, Event.cmd, BrokerCmd.Stores, live_unregister, directId_cons, same,
          Ne.symm same]
    | subscribeDirect t tx => simp [Valid, Admissible, BrokerCmd.sender] at valid
    | _ => simp [Event.Stores, Event.cmd, BrokerCmd.Stores, live_cons, directId_cons]
  | ws w cmd =>
    cases cmd with
    | subscribeDirect t' tx' =>
      have id : (tables h).syntheticId = population h + 100000 := by
        rw [BrokerState.syntheticId, sep.len]
      by_cases same : c = population h + 100000
      · subst same
        have unix : ¬ Live h (population h + 100000) := fun live => spaced.2.1 _ live rfl
        have apart : ∀ t, ¬ DirectId h (population h + 100000) t tx := by
          rintro t ⟨g, w, made, same⟩
          exact spaced.1 g w t tx made (Nat.add_right_cancel same).symm
        simp [Event.Stores, Event.cmd, BrokerCmd.Stores, id, live_cons, unix,
          directId_subscribeDirect, apart]
      · simp [Event.Stores, Event.cmd, BrokerCmd.Stores, id, live_cons, directId_subscribeDirect,
          same, Ne.symm same]
    | unregister c => exact valid.1.1.elim
    | _ => simp [Event.Stores, Event.cmd, BrokerCmd.Stores, live_cons, directId_cons]

omit spaced in
theorem subscribed_cons (c : ConnId) (t : String) (sub : (tables (e :: h)).Subscribed c t) :
    Live (e :: h) c ∨ ∃ tx, DirectId (e :: h) c t tx := by
  rcases Stardust.subscribed_cons.mp sub with ⟨cmd, isCmd, subscribes⟩ | ⟨⟨-, stays⟩, sub⟩
  · cases cmd with
    | subscribe connId topic =>
      obtain ⟨-, rfl⟩ := subscribes
      refine .inl ((Event.live_of_cmd valid.1 isCmd rfl (by simp)).cons ?_)
      rintro rfl
      cases isCmd
    | subscribeDirect topic tx =>
      obtain ⟨rfl, rfl⟩ := subscribes
      cases e with
      | ws w cmd =>
        obtain rfl : cmd = _ := Option.some.inj isCmd
        refine .inr ⟨tx, directId_subscribeDirect.mpr (.inl ⟨⟨rfl, rfl⟩, ?_⟩)⟩
        rw [BrokerState.syntheticId, sep.len]
      | unix cmd =>
        obtain rfl : cmd = _ := Option.some.inj isCmd
        simp [Valid, Admissible, BrokerCmd.sender] at valid
      | opened o => cases isCmd
      | wsGone w => cases isCmd
    | _ => cases subscribes
  · rcases sep.subscribed c t sub with live | ⟨tx, direct⟩
    · exact .inl (live.cons fun ends => stays ((Event.cmd_unregister_iff valid.1).mpr ends))
    · exact .inr ⟨tx, direct.cons⟩

omit spaced in
theorem direct_cons (c : ConnId) (t : String) (tx : Sender) (direct : DirectId (e :: h) c t tx) :
    (tables (e :: h)).Subscribed c t := by
  rw [Stardust.subscribed_cons]
  obtain ⟨g, w, made, same⟩ := direct
  rcases made_cons.mp made with ⟨rfl, rfl⟩ | made
  · refine .inl ⟨_, rfl, rfl, ?_⟩
    rw [BrokerState.syntheticId, sep.len, same]
  · have direct : DirectId h c t tx := ⟨g, w, made, same⟩
    have apart := sep.not_live valid.2 direct
    refine .inr ⟨⟨fun isCmd => apart ?_, fun isCmd => apart ?_⟩, sep.direct c t tx direct⟩
    · exact Event.live_of_cmd valid.1 isCmd rfl (by simp)
    · exact Event.live_of_cmd valid.1 isCmd rfl (by simp)

omit spaced in
theorem services_cons (n : String) (c : ConnId)
    (found : (tables (e :: h)).services.get n = some c) : Live (e :: h) c ∨ c = u64Max := by
  rcases Stardust.services_cons.mp found with ⟨cmd, isCmd, registers⟩ | ⟨⟨-, stays⟩, found⟩
  · cases cmd with
    | register connId name =>
      obtain ⟨-, rfl⟩ := registers
      refine .inl ((Event.live_of_cmd valid.1 isCmd rfl (by simp)).cons ?_)
      rintro rfl
      cases isCmd
    | registerService name => exact .inr registers.2.symm
    | _ => cases registers
  · rcases sep.services n c found with live | direct
    · exact .inl (live.cons fun ends => stays ((Event.cmd_unregister_iff valid.1).mpr ends))
    · exact .inr direct

end Cons

end Separate

/-- **No id is used twice** in the tables of a spaced history. -/
theorem separate (valid : Valid h) (spaced : Spaced h) : Separate h := by
  induction h with
  | nil =>
    refine ⟨rfl, ?_, ?_, ?_, ?_⟩
    · simp [tables, BrokerState.new, Live, DirectId, Made]
    · simp [tables, BrokerState.new, BrokerState.Subscribed]
    · simp [DirectId, Made]
    · simp [tables, BrokerState.new]
  | cons e h ih =>
    have sep := ih valid.2 spaced.2
    exact {
      len := sep.len_cons valid spaced.1
      stored := sep.stored_cons valid spaced.1
      subscribed := sep.subscribed_cons valid
      direct := sep.direct_cons valid
      services := sep.services_cons valid }

/-- **Direct subscriptions do not touch each other** in a spaced history: each finds its
id free, replaces no sender, and at every later moment its channel is sent exactly the
routed messages that match its topic. -/
theorem direct_subscription_isolated (valid : Valid h) (spaced : Spaced h)
    (made : Made h g w t tx) :
    (tables g).connections.get (tables g).syntheticId = none ∧
      (∀ c tx', (tables g).connections.get c = some tx' →
        (runBroker (tables g) (.subscribeDirect t tx)).1.connections.get c = some tx') ∧
      ∀ e, (e.senderConn = 0 ∨ Live h e.senderConn) → ∀ msg,
        .send tx msg ∈ (runBroker (tables h) (.route e)).2 ↔
          msg = e.msg ∧ msg.matchesTopic t = true := by
  have before := valid.suffix made
  have free := (separate before.2 (spaced.suffix made).2).get_syntheticId before
    (spaced.suffix made).1 rfl
  refine ⟨free, fun c tx' stored => ?_, fun e sender msg => ?_⟩
  · have other : c ≠ (tables g).syntheticId := by
      rintro rfl
      rw [free] at stored
      cases stored
    simp only [runBroker, HashMap.get_insert, if_neg other, stored]
  have sep := separate valid spaced
  have direct : DirectId h (population g + 100000) t tx := ⟨g, w, made, rfl⟩
  have apart := sep.not_live valid direct
  rw [runBroker, BrokerState.mem_route]
  constructor
  · rintro ⟨rfl, c, -, stored, due⟩
    refine ⟨rfl, ?_⟩
    obtain rfl : c = population g + 100000 := by
      rcases (sep.stored c tx).mp stored with ⟨rfl, -⟩ | ⟨t', g', w', made', same⟩
      · obtain ⟨k, wrong⟩ := valid.made_forward made
        cases wrong
      · rw [same, (valid.made_unique made made').1]
    rcases due with ⟨-, found⟩ | ⟨p, sub, matched⟩
    · rcases sep.services _ _ found with live | last
      · exact absurd live apart
      · exact absurd last (spaced.suffix made).1.2.2
    · rcases sep.subscribed _ _ sub with live | ⟨tx', g', w', made', same⟩
      · exact absurd live apart
      · rwa [(spaced.made_unique made made' (Nat.add_right_cancel same)).1]
  · rintro ⟨rfl, matched⟩
    refine ⟨rfl, population g + 100000, ?_, (sep.stored _ _).mpr (.inr ⟨t, direct⟩),
      .inr ⟨t, sep.direct _ _ _ direct, matched⟩⟩
    rintro same
    rcases sender with first | live
    · rw [first] at same
      simp at same
    · exact apart (same ▸ live)

/-- Two WebSocket clients subscribe beside one Unix connection. -/
def spacedHistory : History :=
  [.ws 1 (.subscribeDirect "wifi.*" (.forward 1 0)), .ws 0 (.subscribeDirect "audio.*" (.forward 0 0)),
    .opened 0]

theorem direct_subscription_isolated_example :
    Output.send (.forward 0 0) (wsMessage ⟨0, 0⟩ "audio.volume" []) ∈
      (runBroker (tables spacedHistory)
        (BrokerHandle.publish (wsMessage ⟨0, 0⟩ "audio.volume" []))).2 := by
  have valid : Valid spacedHistory := by
    simp [spacedHistory, Valid, Admissible, BrokerCmd.FromWs]
  have spaced : Spaced spacedHistory := by
    simp only [spacedHistory, Spaced, Event.Spaced, Made, List.suffix_cons_iff]
    simp [population, Live, u64Max]
    rintro g w t tx - - - rfl
    decide
  have made : Made spacedHistory [.opened 0] 0 "audio.*" (.forward 0 0) :=
    List.suffix_cons _ _
  obtain ⟨-, -, routed⟩ := direct_subscription_isolated valid spaced made
  exact (routed ⟨_, 0⟩ (.inl rfl) _).mpr ⟨rfl, by decide⟩

/-- A WebSocket client subscribes, a Unix connection closes, another client subscribes. -/
def reusedHistory : History :=
  [.ws 1 (.subscribeDirect "wifi.*" (.forward 1 0)), .unix (.unregister 0),
    .ws 0 (.subscribeDirect "audio.*" (.forward 0 0)), .opened 0]

/-- The second subscription picks the first one's id: it replaces the first one's channel
and is sent the messages of its topic. -/
theorem direct_subscription_replaced :
    Valid reusedHistory ∧
      (tables reusedHistory.tail).connections.get (tables reusedHistory.tail).syntheticId =
        some (.forward 0 0) ∧
      Output.send (.forward 0 0) (wsMessage ⟨0, 0⟩ "audio.volume" []) ∉
        (runBroker (tables reusedHistory)
          (BrokerHandle.publish (wsMessage ⟨0, 0⟩ "audio.volume" []))).2 ∧
      Output.send (.forward 1 0) (wsMessage ⟨0, 0⟩ "audio.volume" []) ∈
        (runBroker (tables reusedHistory)
          (BrokerHandle.publish (wsMessage ⟨0, 0⟩ "audio.volume" []))).2 := by
  refine ⟨?_, ?_, ?_, ?_⟩
  · simp [reusedHistory, Valid, Admissible, BrokerCmd.FromWs, BrokerCmd.sender, Live]
  · decide +kernel
  · decide +kernel
  · decide +kernel

end Stardust
