import UosTv.Stardust.History

/-!
The broker's tables under Unix clients alone.

In a history made of openings and commands of Unix connections only, the three tables
are exactly what the history determines: the latest registration of a name, the latest
subscription or unsubscription of a topic, and the connections opened and not yet
unregistered. The order in which an old and a new instance of a service interleave does
not matter.
-/

namespace Stardust

open Past Rust

/-- The event belongs to a Unix connection. -/
def Event.IsUnix : Event → Prop
  | .opened _ => True
  | .unix _ => True
  | _ => False

instance (e : Event) : Decidable e.IsUnix := by
  cases e <;> unfold Event.IsUnix <;> infer_instance

variable {h : History} {c : ConnId} {n t : String} {tx : Sender}

/-- A processed command found its connection live. -/
theorem Valid.live_of_suffix {g : History} {cmd : BrokerCmd} (valid : Valid h)
    (suffix : .unix cmd :: g <:+ h) (sender : cmd.sender = some c) : Live g c := by
  obtain ⟨c', sender', live⟩ := valid.admissible suffix
  rw [sender] at sender'
  cases sender'
  exact live

theorem Valid.live_of_split {later earlier : History} {cmd : BrokerCmd} (valid : Valid h)
    (split : h = later ++ .unix cmd :: earlier) (sender : cmd.sender = some c) : Live earlier c :=
  valid.live_of_suffix ⟨later, split.symm⟩ sender

/-- Every Unix command comes from a connection that was opened. -/
theorem Valid.opened_of_mem {cmd : BrokerCmd} (valid : Valid h) (mem : .unix cmd ∈ h)
    (sender : cmd.sender = some c) : .opened c ∈ h := by
  obtain ⟨later, earlier, split⟩ := List.append_of_mem mem
  have opened := (valid.live_of_split split sender).1
  rw [split]
  exact List.mem_append_right _ (List.mem_cons_of_mem _ opened)

/-- Nothing of a connection precedes its opening. -/
theorem Valid.not_mem_of_opened {later earlier : History} {cmd : BrokerCmd} (valid : Valid h)
    (split : h = later ++ .opened c :: earlier) (sender : cmd.sender = some c) :
    .unix cmd ∉ earlier := by
  intro mem
  have suffix : .opened c :: earlier <:+ h := ⟨later, split.symm⟩
  have fresh : .opened c ∉ earlier := valid.admissible suffix
  exact fresh ((valid.suffix suffix).2.opened_of_mem mem sender)

/-- An id is opened once. -/
theorem Valid.opened_once {later earlier : History} (valid : Valid h)
    (split : h = later ++ .opened c :: earlier) : .opened c ∉ later := by
  intro mem
  obtain ⟨recent, between, rfl⟩ := List.append_of_mem mem
  have again : .opened c :: (between ++ .opened c :: earlier) <:+ h :=
    ⟨recent, by rw [split, List.append_assoc]; rfl⟩
  have fresh : .opened c ∉ between ++ .opened c :: earlier := valid.admissible again
  exact fresh List.mem_append_cons_self

/-- An opening makes its connection live. -/
theorem live_opened {o : ConnId} (valid : Valid (.opened o :: h)) :
    Live (.opened o :: h) c ↔ c = o ∨ Live h c := by
  have ended : .unix (.unregister o) ∉ h := fun mem => valid.1 (valid.2.opened_of_mem mem rfl)
  by_cases same : c = o
  · subst same
    simp [Live, ended]
  · simp [Live, same]

theorem live_unregister {o : ConnId} :
    Live (.unix (.unregister o) :: h) c ↔ c ≠ o ∧ Live h c := by
  simp [Live, and_left_comm]

/-- Other events leave it as it was. -/
theorem live_cons {e : Event} (opens : ∀ o, e ≠ .opened o) (ends : ∀ o, e ≠ .unix (.unregister o)) :
    Live (e :: h) c ↔ Live h c := by
  simp [Live, Ne.symm (opens c), Ne.symm (ends c)]

theorem Live.cons {e : Event} (live : Live h c) (stays : e ≠ .unix (.unregister c)) :
    Live (e :: h) c :=
  ⟨List.mem_cons_of_mem _ live.1, by simp [live.2, Ne.symm stays]⟩

/-- The bridge sends nothing in the name of a connection, routed messages apart. -/
theorem Event.eq_unix_of_cmd {e : Event} {cmd : BrokerCmd} (adm : Admissible h e)
    (isCmd : e.cmd = some cmd) (sender : cmd.sender = some c)
    (own : ∀ envelope, cmd ≠ .route envelope) : e = .unix cmd := by
  cases e with
  | unix cmd' => rw [Option.some.inj isCmd]
  | ws w cmd' =>
    obtain rfl : cmd' = cmd := Option.some.inj isCmd
    cases cmd' with
    | route envelope => exact absurd rfl (own envelope)
    | registerService name => cases sender
    | subscribeDirect topic tx => cases sender
    | unsubscribeDirect topic tx => cases sender
    | call msg reply => cases sender
    | _ => exact adm.1.elim
  | opened o => cases isCmd
  | wsGone w => cases isCmd

/-- A command in a connection's name, routed messages apart, finds it live. -/
theorem Event.live_of_cmd {e : Event} {cmd : BrokerCmd} (adm : Admissible h e)
    (isCmd : e.cmd = some cmd) (sender : cmd.sender = some c)
    (own : ∀ envelope, cmd ≠ .route envelope) : Live h c := by
  obtain rfl := Event.eq_unix_of_cmd adm isCmd sender own
  obtain ⟨c', sender', live⟩ := adm
  obtain rfl : c = c' := Option.some.inj (sender.symm.trans sender')
  exact live

/-! ### What Unix events do -/

theorem Event.registers_iff {e : Event} {g : History} (adm : Admissible g e) (unix : e.IsUnix) :
    e.Registers n c ↔ e = .unix (.register c n) := by
  cases e with
  | unix cmd =>
    cases cmd with
    | registerService name => simp [Admissible, BrokerCmd.sender] at adm
    | register connId name =>
      simp [Event.Registers, Event.cmd, BrokerCmd.Registers, and_comm]
    | _ => simp [Event.Registers, Event.cmd, BrokerCmd.Registers]
  | opened c' => simp [Event.Registers, Event.cmd]
  | _ => cases unix

theorem Event.subscribes_iff {e : Event} {g : History} {s : BrokerState} (adm : Admissible g e)
    (unix : e.IsUnix) : e.Subscribes s c t ↔ e = .unix (.subscribe c t) := by
  cases e with
  | unix cmd =>
    cases cmd with
    | subscribeDirect topic tx => simp [Admissible, BrokerCmd.sender] at adm
    | subscribe connId topic =>
      simp [Event.Subscribes, Event.cmd, BrokerCmd.Subscribes, and_comm]
    | _ => simp [Event.Subscribes, Event.cmd, BrokerCmd.Subscribes]
  | opened c' => simp [Event.Subscribes, Event.cmd]
  | _ => cases unix

theorem Event.stores_iff {e : Event} {g : History} {s : BrokerState} (adm : Admissible g e)
    (unix : e.IsUnix) : e.Stores s c tx ↔ e = .opened c ∧ tx = .conn c := by
  cases e with
  | unix cmd =>
    cases cmd with
    | subscribeDirect topic tx => simp [Admissible, BrokerCmd.sender] at adm
    | _ => simp [Event.Stores, Event.cmd, BrokerCmd.Stores]
  | opened c' => simp [Event.Stores, Event.cmd]
  | _ => cases unix

theorem Event.cmd_iff {e : Event} {cmd : BrokerCmd} (unix : e.IsUnix) :
    e.cmd = some cmd ↔ e = .unix cmd := by
  cases e with
  | unix cmd' => simp [Event.cmd]
  | opened c' => simp [Event.cmd]
  | _ => cases unix

/-- Only a connection's own task unregisters it. -/
theorem Event.cmd_unregister_iff {e : Event} {g : History} (adm : Admissible g e) :
    e.cmd = some (.unregister c) ↔ e = .unix (.unregister c) := by
  constructor
  · intro isCmd
    exact Event.eq_unix_of_cmd adm isCmd rfl (by simp)
  · rintro rfl
    rfl

/-! ### The three tables -/

/-- An id that only an opening has stored is stored while the connection is live. -/
theorem connections_opened (valid : Valid h)
    (own : ∀ e g tx, e :: g <:+ h → e.Stores (tables g) c tx → e = .opened c) :
    (tables h).connections.get c = some tx ↔ tx = .conn c ∧ Live h c := by
  have starts : ∀ e g, e :: g <:+ h →
      (e.Stores (tables g) c tx ↔ e = .opened c ∧ tx = .conn c) := by
    intro e g suffix
    constructor
    · intro stores
      obtain rfl := own e g tx suffix stores
      exact ⟨rfl, by simpa [Event.Stores, Event.cmd] using stores⟩
    · rintro ⟨rfl, rfl⟩
      exact .inl ⟨rfl, rfl⟩
  have keeps : ∀ e g, e :: g <:+ h →
      ((∀ tx', ¬ e.Stores (tables g) c tx') ∧ e.cmd ≠ some (.unregister c) ↔
        e ≠ .opened c ∧ e ≠ .unix (.unregister c)) := by
    intro e g suffix
    rw [ne_eq, Event.cmd_unregister_iff (valid.admissible suffix)]
    refine and_congr_left fun _ => ⟨?_, fun other tx' stores => other (own e g tx' suffix stores)⟩
    rintro none rfl
    exact none _ (.inl ⟨rfl, rfl⟩)
  rw [connections_iff, since_iff_events keeps starts]
  constructor
  · rintro ⟨later, _, earlier, rfl, ⟨rfl, rfl⟩, held⟩
    refine ⟨rfl, by simp, fun mem => ?_⟩
    rcases List.mem_append.mp mem with recent | old
    · exact (held _ recent).2 rfl
    · rcases List.mem_cons.mp old with same | old
      · cases same
      · exact valid.not_mem_of_opened rfl rfl old
  · rintro ⟨rfl, opened, live⟩
    obtain ⟨later, earlier, rfl⟩ := List.append_of_mem opened
    refine ⟨later, _, earlier, rfl, ⟨rfl, rfl⟩, fun e mem => ⟨?_, ?_⟩⟩
    · rintro rfl
      exact valid.opened_once rfl mem
    · rintro rfl
      exact live (List.mem_append_left _ mem)

/-! ### The commands of one connection -/

/-- The command, if the event is one of connection `c`. -/
def Event.commandOf (c : ConnId) : Event → Option BrokerCmd
  | unix cmd => if cmd.sender = some c then some cmd else none
  | _ => none

/-- The processed commands of connection `c`, the newest first. -/
def commandsOf (c : ConnId) (h : History) : List BrokerCmd := h.filterMap (Event.commandOf c)

theorem Event.commandOf_eq_some {e : Event} {cmd : BrokerCmd} :
    e.commandOf c = some cmd ↔ e = .unix cmd ∧ cmd.sender = some c := by
  cases e with
  | unix cmd' =>
    by_cases sender : cmd'.sender = some c
    · simp only [Event.commandOf, if_pos sender, Option.some.injEq, Event.unix.injEq]
      constructor
      · rintro rfl
        exact ⟨rfl, sender⟩
      · rintro ⟨rfl, -⟩
        rfl
    · simp only [Event.commandOf, if_neg sender, Event.unix.injEq]
      constructor
      · rintro ⟨⟩
      · rintro ⟨rfl, sender'⟩
        exact absurd sender' sender
  | _ => simp [Event.commandOf]

/-- Whatever else happens, a connection's own commands put it under a topic. -/
theorem subscribed_of_commandsOf (valid : Valid h)
    (since : Since (fun cmd _ => cmd ≠ .unsubscribe c t ∧ cmd ≠ .unregister c)
      (fun cmd _ => cmd = .subscribe c t) (commandsOf c h)) : (tables h).Subscribed c t := by
  refine subscribed_iff.mpr ((since_filterMap.mp since).mono ?_ ?_)
  · intro e g suffix keeps
    have own : ∀ cmd, cmd.sender = some c → (∀ envelope, cmd ≠ .route envelope) →
        e.cmd = some cmd → e.commandOf c = some cmd := fun cmd sender own isCmd =>
      Event.commandOf_eq_some.mpr
        ⟨Event.eq_unix_of_cmd (valid.admissible suffix) isCmd sender own, sender⟩
    constructor
    · intro isCmd
      exact (keeps _ (own _ rfl (by simp) isCmd)).1 rfl
    · intro isCmd
      exact (keeps _ (own _ rfl (by simp) isCmd)).2 rfl
  · rintro e g - ⟨cmd, own, rfl⟩
    obtain ⟨rfl, -⟩ := Event.commandOf_eq_some.mp own
    exact ⟨_, rfl, rfl, rfl⟩

section Unix

variable (valid : Valid h) (unix : ∀ e ∈ h, e.IsUnix)
include valid unix

theorem services_unix :
    (tables h).services.get n = some c ↔
      ∃ later earlier : History, h = later ++ .unix (.register c n) :: earlier ∧
        (∀ c', .unix (.register c' n) ∉ later) ∧ .unix (.unregister c) ∉ later := by
  have keeps : ∀ e g, e :: g <:+ h →
      ((∀ c', ¬ e.Registers n c') ∧ e.cmd ≠ some (.unregister c) ↔
        (∀ c', e ≠ .unix (.register c' n)) ∧ e ≠ .unix (.unregister c)) := by
    intro e g suffix
    have isUnix := unix e (suffix.subset List.mem_cons_self)
    simp only [Event.registers_iff (valid.admissible suffix) isUnix, ne_eq, Event.cmd_iff isUnix]
  have starts : ∀ e g, e :: g <:+ h → (e.Registers n c ↔ e = .unix (.register c n)) :=
    fun e g suffix => Event.registers_iff (valid.admissible suffix)
      (unix e (suffix.subset List.mem_cons_self))
  rw [services_iff, since_iff_events keeps starts]
  constructor
  · rintro ⟨later, _, earlier, rfl, rfl, held⟩
    exact ⟨later, earlier, rfl, fun c' mem => (held _ mem).1 c' rfl,
      fun mem => (held _ mem).2 rfl⟩
  · rintro ⟨later, earlier, rfl, latest, live⟩
    refine ⟨later, _, earlier, rfl, rfl, fun e mem => ⟨?_, ?_⟩⟩
    · rintro c' rfl
      exact latest c' mem
    · rintro rfl
      exact live mem

theorem subscribed_unix :
    (tables h).Subscribed c t ↔
      ∃ later earlier : History, h = later ++ .unix (.subscribe c t) :: earlier ∧
        .unix (.subscribe c t) ∉ later ∧ .unix (.unsubscribe c t) ∉ later ∧
          .unix (.unregister c) ∉ h := by
  have starts : ∀ e g, e :: g <:+ h →
      (e.Subscribes (tables g) c t ↔ e = .unix (.subscribe c t)) :=
    fun e g suffix => Event.subscribes_iff (valid.admissible suffix)
      (unix e (suffix.subset List.mem_cons_self))
  have keeps : ∀ e g, e :: g <:+ h →
      ((e.cmd ≠ some (.unsubscribe c t) ∧ e.cmd ≠ some (.unregister c)) ∧
          ¬ e.Subscribes (tables g) c t ↔
        (e ≠ .unix (.unsubscribe c t) ∧ e ≠ .unix (.unregister c)) ∧
          e ≠ .unix (.subscribe c t)) := by
    intro e g suffix
    have isUnix := unix e (suffix.subset List.mem_cons_self)
    simp only [ne_eq, Event.cmd_iff isUnix, starts e g suffix]
  rw [subscribed_iff, since_iff_latest, since_iff_events keeps starts]
  constructor
  · rintro ⟨later, _, earlier, rfl, rfl, held⟩
    refine ⟨later, earlier, rfl, fun mem => (held _ mem).2 rfl,
      fun mem => (held _ mem).1.1 rfl, fun mem => ?_⟩
    rcases List.mem_append.mp mem with recent | old
    · exact (held _ recent).1.2 rfl
    · rcases List.mem_cons.mp old with same | old
      · cases same
      · exact (valid.live_of_split rfl rfl).2 old
  · rintro ⟨later, earlier, rfl, latest, kept, live⟩
    refine ⟨later, _, earlier, rfl, rfl, fun e mem => ⟨⟨?_, ?_⟩, ?_⟩⟩
    · rintro rfl
      exact kept mem
    · rintro rfl
      exact live (List.mem_append_left _ mem)
    · rintro rfl
      exact latest mem

theorem connections_unix :
    (tables h).connections.get c = some tx ↔ tx = .conn c ∧ Live h c := by
  refine connections_opened valid fun e g tx suffix stores => ?_
  have isUnix := unix e (suffix.subset List.mem_cons_self)
  exact ((Event.stores_iff (valid.admissible suffix) isUnix).mp stores).1

/-- Among Unix clients, only a connection's own commands do. -/
theorem subscribed_iff_commandsOf :
    (tables h).Subscribed c t ↔
      Since (fun cmd _ => cmd ≠ .unsubscribe c t ∧ cmd ≠ .unregister c)
        (fun cmd _ => cmd = .subscribe c t) (commandsOf c h) := by
  refine ⟨fun sub => since_filterMap.mpr ((subscribed_iff.mp sub).mono ?_ ?_),
    subscribed_of_commandsOf valid⟩
  · rintro e g - ⟨kept, stays⟩ cmd own
    obtain ⟨rfl, -⟩ := Event.commandOf_eq_some.mp own
    exact ⟨fun same => kept (congrArg some same), fun same => stays (congrArg some same)⟩
  · intro e g suffix subscribes
    have isUnix := unix e (suffix.subset List.mem_cons_self)
    obtain rfl := (Event.subscribes_iff (valid.admissible suffix) isUnix).mp subscribes
    exact ⟨_, Event.commandOf_eq_some.mpr ⟨rfl, rfl⟩, rfl⟩

/-- After its `Unregister`, no table mentions the connection. -/
theorem not_mentioned_of_unregister (gone : .unix (.unregister c) ∈ h) :
    (∀ n, (tables h).services.get n ≠ some c) ∧ (∀ t, ¬ (tables h).Subscribed c t) ∧
      (tables h).connections.get c = none := by
  refine ⟨fun n found => ?_, fun t found => ?_, ?_⟩
  · obtain ⟨later, earlier, split, -, live⟩ := (services_unix valid unix).mp found
    rw [split] at gone
    rcases List.mem_append.mp gone with recent | old
    · exact live recent
    · rcases List.mem_cons.mp old with same | old
      · cases same
      · exact (valid.live_of_split split rfl).2 old
  · obtain ⟨later, earlier, -, -, -, live⟩ := (subscribed_unix valid unix).mp found
    exact live gone
  · rw [Option.eq_none_iff_forall_ne_some]
    intro tx found
    exact ((connections_unix valid unix).mp found).2.2 gone

end Unix

/-- **The tables are the ones the history determines.** A service name is mapped to the
connection of its latest registration, unless that connection was unregistered since. A
connection is under a topic iff its latest command about the topic is a subscription and
it has not been unregistered. `connections` holds the connections opened and not
unregistered, and a connection that is unregistered is mentioned nowhere afterwards. When
a restarted service registers its name again, the name is mapped to the new connection
whether the old one is unregistered later or earlier. -/
theorem run_broker_tables (valid : Valid h) (unix : ∀ e ∈ h, e.IsUnix) :
    (∀ n c, (tables h).services.get n = some c ↔
      ∃ later earlier, h = later ++ .unix (.register c n) :: earlier ∧
        (∀ c', .unix (.register c' n) ∉ later) ∧ .unix (.unregister c) ∉ later) ∧
    (∀ t c, (tables h).Subscribed c t ↔
      ∃ later earlier, h = later ++ .unix (.subscribe c t) :: earlier ∧
        .unix (.subscribe c t) ∉ later ∧ .unix (.unsubscribe c t) ∉ later ∧
          .unix (.unregister c) ∉ h) ∧
    (∀ c tx, (tables h).connections.get c = some tx ↔
      tx = .conn c ∧ .opened c ∈ h ∧ .unix (.unregister c) ∉ h) ∧
    (∀ c, .unix (.unregister c) ∈ h → (∀ n, (tables h).services.get n ≠ some c) ∧
      (∀ t, ¬ (tables h).Subscribed c t) ∧ (tables h).connections.get c = none) ∧
    ∀ n old new later earlier, h = later ++ .unix (.register new n) :: earlier →
      (∀ c', .unix (.register c' n) ∉ later) → .unix (.unregister new) ∉ later →
      (.unix (.unregister old) ∈ later ∨ .unix (.unregister old) ∈ earlier) →
      (tables h).services.get n = some new := by
  refine ⟨fun _ _ => services_unix valid unix, fun _ _ => subscribed_unix valid unix,
    fun _ _ => connections_unix valid unix, fun _ => not_mentioned_of_unregister valid unix, ?_⟩
  intro n old new later earlier split latest live _
  exact (services_unix valid unix).mpr ⟨later, earlier, split, latest, live⟩

/-- A service restarts on connection 1 while connection 0 is still registered. -/
def restartHistory : History :=
  [.unix (.unregister 0), .unix (.register 1 "netmd"), .opened 1,
    .unix (.subscribe 0 "rpc.netmd.*"), .unix (.register 0 "netmd"), .opened 0]

theorem run_broker_tables_restart :
    (tables restartHistory).services.get "netmd" = some 1 ∧
      ¬ (tables restartHistory).Subscribed 0 "rpc.netmd.*" := by
  have valid : Valid restartHistory := by
    simp [restartHistory, Valid, Admissible, BrokerCmd.sender, Live]
  have unix : ∀ e ∈ restartHistory, e.IsUnix := by decide
  obtain ⟨-, -, -, gone, restart⟩ := run_broker_tables valid unix
  exact ⟨restart "netmd" 0 1 [.unix (.unregister 0)] _ rfl (by simp) (by simp) (.inl (by simp)),
    (gone 0 (by decide)).2.1 _⟩

end Stardust
