import UosTv.Otad.Polling

/-!
The states that the UI is told in the calls of the polling loop.

A call of `check_and_update` goes through the states of an update in their order (`Path`), all
with the version that the server offers. Two things go wrong: `install` tells the version
`"unknown"`, and when the first call fails no error is told (`call_told_iff`).
-/

namespace Otad

open Effect Rust UpdateVerify

variable {Key Value : Type}

/-! ### Paths -/

/-- The states of an update before it has been dealt with. -/
def progressStates (autoInstall : Bool) (version : String) (size : UInt64) (critical : Bool)
    (percent : Nat) (path : String) : List OtaState :=
  [.checking, .updateAvailable version size critical, .downloading version percent,
    .downloaded version path, .verifying version] ++
    (if autoInstall then [.installing version] else [] : List OtaState)

/-- The states of a call: there is no update, or there is one of the version and it is dealt
with, or an error cuts this short. -/
inductive Path (autoInstall : Bool) (version : String) : List OtaState → Prop where
  | noUpdate : Path autoInstall version [.checking, .noUpdate]
  | ready (size : UInt64) (critical : Bool) (percent : Nat) (path : String)
      (manual : autoInstall = false) :
      Path autoInstall version (progressStates autoInstall version size critical percent path)
  | installed (size : UInt64) (critical : Bool) (percent : Nat) (path : String)
      (automatic : autoInstall = true) :
      Path autoInstall version
        (progressStates autoInstall version size critical percent path ++ [.waitingReboot version])
  | rebooting (size : UInt64) (critical : Bool) (percent : Nat) (path : String)
      (automatic : autoInstall = true) :
      Path autoInstall version
        (progressStates autoInstall version size critical percent path ++
          [.waitingReboot version, .rebooting])
  | cut (size : UInt64) (critical : Bool) (percent : Nat) (path : String) (e : String)
      {part : List OtaState} (started : part ≠ [])
      (progress : part <+: progressStates autoInstall version size critical percent path) :
      Path autoInstall version (part ++ [.error e])

/-- An install of a path is one of its version. -/
theorem Path.version_of_installing {autoInstall : Bool} {version other : String}
    {states : List OtaState} (told : Path autoInstall version states)
    (mem : .installing other ∈ states) : other = version := by
  have installing : ∀ {size critical percent path}, .installing other ∈
      progressStates autoInstall version size critical percent path → other = version := by
    intro size critical percent path mem
    cases autoInstall with
    | false => simp [progressStates] at mem
    | true => simpa [progressStates] using mem
  cases told with
  | noUpdate => simp at mem
  | ready => exact installing mem
  | installed => exact installing (by simpa using mem)
  | rebooting => exact installing (by simpa using mem)
  | cut size critical percent path e started progress =>
    exact installing (progress.subset (by simpa using mem))

/-! ### Calls -/

/-- The states that have been entered, the oldest one first. -/
def entered (log : List Entry) : List OtaState :=
  log.reverse.filterMap fun
    | .state state => some state
    | _ => none

/-- What has been logged between two moments of a run. -/
def World.since (before after : World) : List Entry :=
  after.log.take (after.log.length - before.log.length)

/-- The contract that relies on it that the update is the one that is offered. -/
def offering (offer : UpdateInfo) : Contract (Op Value) Ans World where
  rely
    | _, .json _, answer => ∀ info, (answer : Except String UpdateInfo) = .ok info → info = offer
    | _, _, _ => True
  guarantee _ _ := True

/-- A call of `check_and_update` in a run of `run_polling_loop`: whether it is the first one, the
update that the server offers if it does, how it ends, and the worlds when it begins and when
the loop goes to sleep after it. -/
inductive Called (setup : Setup Key Value) (orch : Orchestrator) (sha256 : Bytes → Bytes)
    (start : World) (choices : List Choice) (offer : UpdateInfo) :
    Bool → Except Failure Unit → World → World → Prop where
  | first {result : Except Failure Unit} {after : World} {rest : List Choice}
      (run : exec (act setup) (orch.checkAndUpdate sha256).run start choices =
        some (result, after, rest))
      (offered : ∀ e ∈ trace (act setup) (orch.checkAndUpdate sha256).run start choices,
        e.Relied (offering offer)) :
      Called setup orch sha256 start choices offer true result start after
  | later {turns : Nat} {result : Except Failure Unit} {before ended after : World}
      {here left rest : List Choice}
      (loop : exec (act setup) (orch.runPollingLoop sha256 turns) start choices =
        some ((), before, here))
      (run : exec (act setup) (do
          interval orch.config.pollIntervalSecs
          (orch.checkAndUpdate sha256).run) before here = some (result, ended, left))
      (offered : ∀ e ∈ trace (act setup) (orch.poll sha256) before here,
        e.Relied (offering offer))
      (turn : exec (act setup) (orch.poll sha256) before here = some ((), after, rest)) :
      Called setup orch sha256 start choices offer false result before after

/-- The states of a call are a path of the version that is offered, and when it has failed the
state is an error. -/
def Told (orch : Orchestrator) (offer : UpdateInfo) (result : Except Failure Unit)
    (before after : World) : Prop :=
  Path orch.config.autoInstall offer.version (entered (before.since after)) ∧
    (result ≠ .ok () → ∃ e, after.state = .error e)

/-! ### What a call logs -/

section Run

variable {setup : Setup Key Value} {orch : Orchestrator} {sha256 : Bytes → Bytes}
  {offer : UpdateInfo} {w w' : World} {result : Except Failure Unit} {log : List Entry}

/-- The ways in which a call can end when the server offers this update, if it offers one. -/
inductive CallLog (orch : Orchestrator) (offer : UpdateInfo) :
    Except Failure Unit → List Entry → Prop where
  | statusFails (e : RaucError) : CallLog orch offer (.error (.rauc e)) [.state .checking]
  | checkFails (e : DownloadError) (slots : List SlotStatus) :
      CallLog orch offer (.error (.download e)) (checkingLog slots)
  | noUpdate (slots : List SlotStatus) :
      CallLog orch offer (.ok ()) (.state .noUpdate :: checkingLog slots)
  | offered (slots : List SlotStatus) {result : Except Failure Unit} {log : List Entry}
      (ends : OfferLog orch offer slots result log) : CallLog orch offer result log

/-- What holds whatever is offered. -/
theorem wp_offering {α : Type} {p : M Value α} {Q : α → World → Prop}
    (pre : wp (act setup) (replying fun _ => True) p Q w) :
    wp (act setup) (offering offer) p Q w := by
  apply wp_weaken _ (fun _ _ _ => trivial) pre
  intro s o answer _
  cases o
  case send request => exact fun _ _ => trivial
  all_goals exact trivial

theorem wp_json_offering {response : Response} {Q : Except String UpdateInfo → World → Prop}
    (ok : Q (.ok offer) w) (error : ∀ e, Q (.error e) w) :
    wp (act setup) (offering offer) (json response) Q w := by
  apply And.intro trivial
  intro choice answer w' done
  apply answer_cases (P := fun r w' => (offering offer).rely w (.json response) r → Q r w') done
  · intro relied
    rw [relied _ rfl]
    exact ok
  · intro e _
    exact error e

namespace Orchestrator

theorem wp_checkUpdate_offering {dl : Downloader} {device channel version : String}
    {Q : Option UpdateInfo → World → Prop} {E : DownloadError → World → Prop}
    (none : Q none w) (some : Q (some offer) w) (error : ∀ e, E e w) :
    wpExcept (act setup) (offering offer) (dl.checkUpdate device channel version) Q E w := by
  simp only [Downloader.checkUpdate, wpExcept_bind, wpExcept_attempt]
  apply wp_offering
  apply wp_send _ fun e => error _
  intro response _
  change wpExcept _ _ (if _ then _ else _) _ _ _
  split
  · exact none
  · rw [wpExcept_bind, wpExcept_attempt]
    exact wp_json_offering some fun e => error _

/-- How a call ends when the server offers this update, if it offers one. -/
theorem wp_checkAndUpdate_offering :
    wp (act setup) (offering offer) (orch.checkAndUpdate sha256).run
      (fun result w' => ∃ es, CallLog orch offer result es ∧ w'.log = es ++ w.log) w := by
  have ends : wpExcept (act setup) (offering offer) (orch.checkAndUpdate sha256)
      (fun _ w' => ∃ es, CallLog orch offer (.ok ()) es ∧ w'.log = es ++ w.log)
      (fun e w' => ∃ es, CallLog orch offer (.error e) es ∧ w'.log = es ++ w.log) w := by
    simp only [checkAndUpdate, wpExcept_bind, wpExcept_always, wpExcept_attempt]
    apply wp_offering
    rw [wp_setState]
    apply wp_offering
    apply wp_currentVersion _ fun e => ⟨_, .statusFails e, rfl⟩
    intro slots
    apply wp_checkUpdate_offering _ _ fun e => ⟨_, .checkFails e slots, rfl⟩
    · change wpExcept _ _ (always (orch.setState .noUpdate)) _ _ _
      rw [wpExcept_always]
      apply wp_offering
      rw [wp_setState]
      exact ⟨_, .noUpdate slots, rfl⟩
    · apply wp_offering
      apply wp_mono (wp_offered (rfl : _ = checkingLog slots ++ w.log))
      rintro (e | _) w' ⟨es, ends, log⟩
      · exact ⟨es, .offered slots ends, log⟩
      · exact ⟨es, .offered slots ends, log⟩
  apply wp_mono ends
  rintro (e | _) w' post
  · exact post
  · exact post

end Orchestrator

theorem entered_append (newer older : List Entry) :
    entered (newer ++ older) = entered older ++ entered newer := by
  rw [entered, List.reverse_append, List.filterMap_append]
  rfl

theorem World.since_eq {es : List Entry} (log : w'.log = es ++ w.log) : w.since w' = es := by
  rw [World.since, log, List.length_append, Nat.add_sub_cancel, List.take_left]

/-- The state is the one that has been entered last. -/
def Synced (w : World) : Prop := ∀ front s, entered w.log = front ++ [s] → w.state = s

/-- The state is as it was, and none has been logged. -/
def Quiet (w w' : World) : Prop :=
  w'.state = w.state ∧ ∃ es, w'.log = es ++ w.log ∧ entered es = []

theorem World.FilesOnly.quiet (same : w.FilesOnly w') : Quiet w w' :=
  ⟨same.state, [], same.log, rfl⟩

theorem quiet_note {entry : Entry} (quiet : entered [entry] = []) : Quiet w (w.note entry) :=
  ⟨rfl, [entry], rfl, quiet⟩

theorem Synced.of_quiet (synced : Synced w) (quiet : Quiet w w') : Synced w' := by
  obtain ⟨state, es, log, none⟩ := quiet
  intro front s last
  rw [log, entered_append, none, List.append_nil] at last
  rw [state]
  exact synced front s last

/-- Only `set_state` changes the state. -/
theorem quiet_act {o : Op Value} {choice : Choice} {answer : Ans o}
    (done : act setup w o choice = some (answer, w')) (other : ∀ new, o ≠ .setState new) :
    Quiet w w' := by
  have same : Quiet w w := (World.FilesOnly.refl w).quiet
  suffices rule : wp (act setup) (replying fun _ => True) (call o) (fun _ => Quiet w) w by
    apply rule.2 choice answer w' done
    cases o with
    | send request => exact fun _ _ => trivial
    | _ => exact trivial
  cases o with
  | createDirAll path => exact wp_createDirAll same fun _ => same
  | pathExists path => exact wp_pathExists (fun _ _ => same) same
  | fileLen path => exact wp_fileLen (fun _ _ => same) fun _ => same
  | append path bytes =>
    exact wp_append (fun content => (w.filesOnly_put path content).quiet) fun _ _ same => same.quiet
  | write path bytes => exact wp_write (w.filesOnly_put path bytes).quiet fun _ _ same => same.quiet
  | read path => exact wp_read (fun _ _ => same) fun _ => same
  | removeFile path => exact wp_removeFile fun _ _ same => same.quiet
  | send request => exact wp_send (fun _ _ => same) fun _ => same
  | json response => exact wp_json (fun _ => same) fun _ => same
  | body response => exact wp_body (fun _ => same) fun _ => same
  | progress downloaded total => exact wp_progress same
  | raucStatus => exact wp_raucStatus (fun _ => quiet_note rfl) fun _ => same
  | raucInfo path => exact wp_raucInfo (quiet_note rfl) fun _ => quiet_note rfl
  | raucInstall path => exact wp_raucInstall fun _ => quiet_note rfl
  | verifyBundle signed version =>
    apply And.intro trivial
    intro choice answer w' done _
    change actVerify w version _ = _ at done
    unfold actVerify at done
    split at done
    · cases done
    · cases done
      exact same
    · cases done
      exact quiet_note rfl
  | state => exact wp_state.mpr same
  | setState new => exact absurd rfl (other new)
  | publish method payload => exact wp_publish.mpr same
  | sleep duration => exact wp_sleep.mpr same
  | interval secs => exact wp_interval.mpr same
  | reboot => exact wp_reboot.mpr (quiet_note rfl)

theorem synced_act {o : Op Value} {choice : Choice} {answer : Ans o}
    (done : act setup w o choice = some (answer, w')) (synced : Synced w) : Synced w' := by
  by_cases sets : ∃ new, o = .setState new
  · obtain ⟨new, rfl⟩ := sets
    cases done
    intro front s last
    change entered ([Entry.state new] ++ w.log) = _ at last
    rw [entered_append] at last
    exact (List.cons.inj (List.append_inj' last rfl).2).1
  · exact synced.of_quiet (quiet_act done fun new same => sets ⟨new, same⟩)

theorem path_take {autoInstall : Bool} (version : String) (size : UInt64) (critical : Bool)
    (path e : String) (n : Nat) :
    Path autoInstall version
      ((progressStates autoInstall version size critical 0 path).take (n + 1) ++ [OtaState.error e]) := by
  have started : (progressStates autoInstall version size critical 0 path).take (n + 1) ≠ [] :=
    List.cons_ne_nil _ _
  exact .cut size critical 0 path e started (List.take_prefix _ _)

theorem entered_installLog {path : String} {slots : List SlotStatus}
    (unknown : offer.version = "unknown") : entered (installLog path offer slots) =
      progressStates true offer.version offer.size offer.critical 0 path := by
  have states : entered (installLog path offer slots) =
      [.checking, .updateAvailable offer.version offer.size offer.critical,
        .downloading offer.version 0, .downloaded offer.version path, .verifying offer.version,
        .installing "unknown"] := rfl
  rw [states, unknown]
  rfl

/-- A call has told a path, also in its error, iff it has not told an install of another version. -/
theorem CallLog.path_iff (ends : CallLog orch offer result log) :
    Path orch.config.autoInstall offer.version (entered (turnLog result log)) ↔
      (orch.config.autoInstall = true → (∃ path, .info path true ∈ log) →
        offer.version = "unknown") := by
  cases ends with
  | statusFails e =>
    apply iff_of_true
    · exact path_take _ 0 false "" _ 0
    · simp
  | checkFails e slots =>
    apply iff_of_true
    · exact path_take _ 0 false "" _ 0
    · simp [checkingLog]
  | noUpdate slots =>
    apply iff_of_true
    · exact .noUpdate
    · simp [checkingLog]
  | offered slots ends =>
    have installing : ∀ {states : List OtaState}, Path orch.config.autoInstall offer.version states →
        OtaState.installing "unknown" ∈ states → offer.version = "unknown" := fun told mem =>
      (told.version_of_installing mem).symm
    have accepted : ∃ path, Entry.info path true ∈
        installLog (orch.bundlePath offer) offer slots := by
      simp [installLog, acceptedLog]
    cases ends with
    | downloadFails e =>
      apply iff_of_true
      · exact path_take _ offer.size offer.critical "" _ 2
      · simp [downloadingLog, checkingLog]
    | rejected e =>
      apply iff_of_true
      · exact path_take _ offer.size offer.critical _ _ 4
      · simp [verifyingLog, downloadingLog, checkingLog]
    | ready manual =>
      apply iff_of_true
      · rw [manual]
        exact .ready offer.size offer.critical 0 _ rfl
      · simp [manual]
    | installFails e automatic =>
      constructor
      · intro told _ _
        apply installing told
        simp [turnLog, installLog, entered]
      · intro unknown
        change Path _ _ (entered ([_] ++ installLog (orch.bundlePath offer) offer slots))
        rw [entered_append, entered_installLog (unknown automatic accepted), automatic]
        exact .cut _ _ 0 _ _ (List.cons_ne_nil _ _) (List.prefix_refl _)
    | pending automatic stays =>
      constructor
      · intro told _ _
        apply installing told
        simp [turnLog, pendingLog, installLog, entered]
      · intro unknown
        have unknown := unknown automatic (accepted.imp fun _ => List.mem_cons_of_mem _)
        change Path _ _ (entered ([Entry.state (.waitingReboot "unknown")] ++ installLog _ offer slots))
        rw [entered_append, entered_installLog unknown, automatic, ← unknown]
        exact .installed _ _ 0 _ rfl
    | rebooting automatic reboots =>
      constructor
      · intro told _ _
        apply installing told
        simp [turnLog, pendingLog, installLog, entered]
      · intro unknown
        have unknown := unknown automatic (accepted.imp fun _ mem =>
          List.mem_cons_of_mem _ (List.mem_cons_of_mem _ (List.mem_cons_of_mem _ mem)))
        change Path _ _ (entered ([Entry.reboot, .state .rebooting, .state (.waitingReboot "unknown")] ++
          installLog _ offer slots))
        rw [entered_append, entered_installLog unknown, automatic, ← unknown]
        exact .rebooting _ _ 0 _ rfl

/-- A call that fails tells no error itself. -/
theorem CallLog.no_error {e : Failure} (ends : CallLog orch offer (.error e) log) :
    ∃ (front : List OtaState) (s : OtaState), entered log = front ++ [s] ∧
      ∀ text, s ≠ .error text := by
  cases ends with
  | statusFails e => exact ⟨[], .checking, rfl, by rintro _ ⟨⟩⟩
  | checkFails e slots => exact ⟨[], .checking, rfl, by rintro _ ⟨⟩⟩
  | offered slots ends =>
    cases ends with
    | downloadFails e => exact ⟨[_, _], _, rfl, by rintro _ ⟨⟩⟩
    | rejected e => exact ⟨[_, _, _, _], _, rfl, by rintro _ ⟨⟩⟩
    | installFails e automatic => exact ⟨[_, _, _, _, _], _, rfl, by rintro _ ⟨⟩⟩

/-! ### Calls in a run -/

variable {choices rest : List Choice} {before after : World} {first : Bool}

/-- What the loop does with the end of a call. -/
def settle (orch : Orchestrator) : Except Failure Unit → M Value Unit
  | .ok _ => pure ()
  | .error e => orch.setState (.error e.display)

theorem poll_eq : (orch.poll sha256 : M Value Unit) = (do
    interval orch.config.pollIntervalSecs
    (orch.checkAndUpdate sha256).run) >>= settle orch := rfl

/-- What a call has logged when the loop goes to sleep after it. -/
theorem Called.logs
    (called : Called setup orch sha256 w.begin choices offer first result before after) :
    Synced after ∧ ∃ es, CallLog orch offer result es ∧
      after.log = (if first then es else turnLog result es) ++ before.log := by
  have keeps : ∀ (w : World) (o : Op Value) (choice : Choice) (answer : Ans o) (w' : World),
      act setup w o choice = some (answer, w') → Synced w → Synced w' :=
    fun _ _ _ _ _ => synced_act
  have start : Synced w.begin := by
    intro front s last
    cases front <;> cases last
  cases called with
  | first run offered =>
    exact ⟨exec_invariant keeps run start,
      wp_exec Orchestrator.wp_checkAndUpdate_offering run offered⟩
  | @later _ _ _ ended _ _ left _ loop run offered turn =>
    apply And.intro (exec_invariant keeps turn (exec_invariant keeps loop start))
    rw [poll_eq, trace_bind run] at offered
    obtain ⟨es, ends, log⟩ : ∃ es, CallLog orch offer result es ∧ ended.log = es ++ before.log := by
      apply wp_exec (m := act setup) (c := offering offer) _ run
        fun e mem => offered e (List.mem_append_left _ mem)
      rw [wp_bind]
      exact wp_offering (wp_interval.mpr (Orchestrator.wp_checkAndUpdate_offering (w := before)))
    rw [poll_eq, exec_bind, run] at turn
    change exec (act setup) (settle orch result) ended left = _ at turn
    refine ⟨es, ends, ?_⟩
    cases result with
    | ok _ =>
      cases turn
      exact log
    | error e =>
      have told := wp_exec (m := act setup) (c := replying fun _ => True)
        (Q := fun _ w' => w'.log = (ended.enter (.error e.display)).log)
        (Orchestrator.wp_setState.mpr rfl) turn fun e _ => Orchestrator.relied_anyReply e
      rw [told, World.enter_log, log]
      rfl

/-- A call has told its states iff it is not the first one and fails, and it has not gone on to an
install of a version other than `"unknown"`. -/
theorem call_told_iff
    (called : Called setup orch sha256 w.begin choices offer first result before after) :
    Told orch offer result before after ↔ (first = true → result = .ok ()) ∧
      (orch.config.autoInstall = true → (∃ path, .info path true ∈ before.since after) →
        offer.version = "unknown") := by
  obtain ⟨synced, es, ends, log⟩ := called.logs
  rw [Told, World.since_eq log]
  cases result with
  | ok _ =>
    have same : (if first then es else turnLog (.ok ()) es) = turnLog (.ok ()) es := by
      cases first <;> rfl
    rw [same, ends.path_iff]
    simp [turnLog]
  | error e =>
    cases first with
    | true =>
      obtain ⟨front, s, last, other⟩ := ends.no_error
      apply iff_of_false
      · rintro ⟨-, failed⟩
        obtain ⟨text, state⟩ := failed (by rintro ⟨⟩)
        rw [if_pos rfl] at log
        have latest := synced (entered before.log ++ front) s
          (by rw [log, entered_append, last, List.append_assoc])
        exact other text (latest.symm.trans state)
      · rintro ⟨ok, -⟩
        cases ok rfl
    | false =>
      have failed : ∃ text, after.state = .error text := by
        refine ⟨e.display, synced (entered before.log ++ entered es) _ ?_⟩
        change after.log = ([Entry.state (.error e.display)] ++ es) ++ before.log at log
        rw [log, entered_append, entered_append, List.append_assoc]
        rfl
      have info : ∀ path, Entry.info path true ∈ turnLog (.error e) es ↔
          .info path true ∈ es := by
        intro path
        simp [turnLog]
      change Path _ _ (entered (turnLog (.error e) es)) ∧ _ ↔ _
      rw [ends.path_iff]
      simp [failed, info]

/-- The server offers what the choices say. -/
theorem relied_of_choices {α : Type} {p : M Value α} (all : ∀ x ∈ choices, x.info = offer) :
    ∀ e ∈ trace (act setup) p w choices, e.Relied (offering offer) := by
  have unanswered : ∀ (w : World) (o : Op Value), ∀ e ∈ [(⟨w, o, none⟩ : Event _ _ _)],
      e.Relied (offering offer) := by
    intro w o e mem
    obtain rfl := List.mem_singleton.mp mem
    rintro _ ⟨⟩
  induction p generalizing w choices with
  | ret a => exact List.forall_mem_nil _
  | op o next ih =>
    cases choices with
    | nil => exact unanswered w o
    | cons choice choices =>
      obtain ⟨here, later⟩ := List.forall_mem_cons.mp all
      simp only [trace]
      cases done : act setup w o choice with
      | none => exact unanswered w o
      | some out =>
        apply List.forall_mem_cons.mpr ⟨_, ih out.1 later⟩
        rintro answer ⟨⟩
        cases o with
        | json response =>
          apply answer_cases (P := fun r _ => ∀ info, r = .ok info → info = offer) done
          · rintro _ ⟨⟩
            exact here
          · rintro _ _ ⟨⟩
        | _ => exact trivial

end Run

/-- The device after a first turn in which a bundle has been downloaded and is not installed. -/
def sampleReady : World where
  files := HashMap.insert ∅ "/data/ota/update-2.0.0.raucb" [0x62]
  state := .verifying "2.0.0"
  log := acceptedLog "/data/ota/update-2.0.0.raucb" sampleOffer [⟨some "1.1.0", true⟩]

theorem call_told_ready :
    Told (sampleOrch false) sampleOffer (.ok ()) emptyWorld.begin sampleReady := by
  have run : exec (act Downloader.sampleSetup)
      ((sampleOrch false).checkAndUpdate Downloader.sampleSha256).run emptyWorld.begin
      (List.replicate 21 (offered 200)) = some (.ok (), sampleReady, []) := rfl
  have called : Called Downloader.sampleSetup (sampleOrch false) Downloader.sampleSha256
      emptyWorld.begin (List.replicate 21 (offered 200)) sampleOffer true (.ok ())
      emptyWorld.begin sampleReady :=
    .first run (relied_of_choices fun x mem => List.eq_of_mem_replicate mem ▸ rfl)
  exact (call_told_iff called).mpr ⟨fun _ => rfl, by rintro ⟨⟩⟩

/-- The first call installs the offered version 2.0.0 and tells that it installs `"unknown"`. A
first call that does not get an answer from RAUC leaves the state at `Checking`. -/
theorem unknown_told :
    (Called Downloader.sampleSetup (sampleOrch true) Downloader.sampleSha256 emptyWorld.begin
        (List.replicate 27 (offered 200)) sampleOffer true (.ok ()) emptyWorld.begin
        sampleInstalled ∧
      ¬ Told (sampleOrch true) sampleOffer (.ok ()) emptyWorld.begin sampleInstalled) ∧
    ∃ after, Called Downloader.sampleSetup (sampleOrch true) Downloader.sampleSha256
        emptyWorld.begin
        [offered 200, offered 200, { offered 200 with rauc := some (.io "No such file or directory") }]
        sampleOffer true (.error (.rauc (.io "No such file or directory"))) emptyWorld.begin after ∧
      after.state = .checking := by
  constructor
  · constructor
    · have run : exec (act Downloader.sampleSetup)
          ((sampleOrch true).checkAndUpdate Downloader.sampleSha256).run emptyWorld.begin
          (List.replicate 27 (offered 200)) = some (.ok (), sampleInstalled, []) := rfl
      exact .first run (relied_of_choices fun x mem => List.eq_of_mem_replicate mem ▸ rfl)
    · rintro ⟨path, -⟩
      have other : "unknown" = _ := path.version_of_installing (by decide)
      revert other
      decide
  · have run : exec (act Downloader.sampleSetup)
        ((sampleOrch true).checkAndUpdate Downloader.sampleSha256).run emptyWorld.begin
        [offered 200, offered 200, { offered 200 with rauc := some (.io "No such file or directory") }] =
        some (.error (.rauc (.io "No such file or directory")), _, []) := rfl
    exact ⟨_, .first run (relied_of_choices (by simp [offered])), rfl⟩

end Otad
