import UosTv.Lib.Past
import UosTv.Services.Audiod

/-!
What mute means to the four operations on the volume.

`toggle_mute` keeps the level in force and sets the volume to zero, and `volume_up` ends a mute.
`set_volume` knows nothing of it: the device stays muted at another volume, and the level is
forgotten when the mute ends. So the volume is as it should be in every run in which nothing is
set while the device is muted, but the silence that is there already (`muting_iff`).
-/

namespace Audiod

open Past

inductive VolumeOp where
  | setVolume (vol : UInt32)
  | volumeUp
  | volumeDown
  | toggleMute
deriving DecidableEq, Repr

def VolumeOp.apply (vc : VolumeController) : VolumeOp → VolumeController
  | setVolume vol => vc.setVolume vol
  | volumeUp => vc.volumeUp
  | volumeDown => vc.volumeDown
  | toggleMute => vc.toggleMute

/-- The controller after a sequence of operations, the newest first. -/
def controller : List VolumeOp → VolumeController
  | [] => .new
  | op :: ops => op.apply (controller ops)

/-- The level that the end of a mute should restore: the one in force when the device was muted,
or the one that has been set since. -/
def wanted : List VolumeOp → UInt32
  | [] => defaultVolume
  | .setVolume vol :: ops => if (controller ops).muted then min vol maxVolume else wanted ops
  | .toggleMute :: ops => if (controller ops).muted then wanted ops else (controller ops).volume
  | _ :: ops => wanted ops

/-- The volume is one that there is, and zero while the device is muted. -/
def Proper (ops : List VolumeOp) : Prop :=
  (controller ops).volume ≤ maxVolume ∧ ((controller ops).muted → (controller ops).volume = 0)

/-- The operation restores the level if it ends a mute. -/
def Restores (op : VolumeOp) (ops : List VolumeOp) : Prop :=
  op = .toggleMute → (controller ops).muted → (controller (op :: ops)).volume = wanted ops

/-- A level has been set since the device was muted. -/
def SetWhileMuted : List VolumeOp → Prop :=
  Since (fun op _ => op ≠ .toggleMute) fun op ops =>
    (controller ops).muted ∧ ∃ vol, op = .setVolume vol

/-- What an operation has to look out for while the device is muted. -/
def Keeps (op : VolumeOp) (ops : List VolumeOp) : Prop :=
  (controller ops).muted →
    match op with
    | .setVolume vol => vol = 0
    | .toggleMute => SetWhileMuted ops → (controller ops).previousVolume = 0
    | _ => True

/-! ### Volumes -/

section Volumes

variable {vc : VolumeController} {vol : UInt32}

theorem max_minVolume : max vol minVolume = vol := by
  change (if vol ≤ 0 then 0 else vol) = vol
  split
  · rename_i zero
    exact (UInt32.le_zero_iff.mp zero).symm
  · rfl

theorem min_maxVolume : min vol maxVolume = if vol ≤ maxVolume then vol else maxVolume := rfl

theorem min_maxVolume_le : min vol maxVolume ≤ maxVolume := by
  rw [min_maxVolume]
  split
  · assumption
  · exact UInt32.le_refl _

theorem min_maxVolume_eq_zero : min vol maxVolume = 0 ↔ vol = 0 := by
  rw [min_maxVolume]
  split
  · rfl
  · rename_i above
    refine ⟨fun zero => absurd zero (by decide), fun zero => absurd ?_ above⟩
    rw [zero]
    exact UInt32.zero_le

theorem volume_setVolume : (vc.setVolume vol).volume = min vol maxVolume := max_minVolume

theorem volume_volumeDown :
    vc.volumeDown.volume = if volumeStep ≤ vc.volume then vc.volume - volumeStep else 0 :=
  max_minVolume

/-- Less volume is no more than there was. -/
theorem volume_volumeDown_le : vc.volumeDown.volume ≤ vc.volume := by
  rw [volume_volumeDown]
  split
  · rename_i enough
    exact UInt32.sub_le enough
  · exact UInt32.zero_le

/-- Both levels are volumes that there are. -/
structure Bounded (vc : VolumeController) : Prop where
  volume : vc.volume ≤ maxVolume
  previousVolume : vc.previousVolume ≤ maxVolume

theorem Bounded.apply (bounded : Bounded vc) (op : VolumeOp) : Bounded (op.apply vc) := by
  cases op with
  | setVolume vol =>
    refine ⟨?_, bounded.previousVolume⟩
    exact UInt32.le_trans (UInt32.le_of_eq volume_setVolume) min_maxVolume_le
  | volumeUp => exact ⟨min_maxVolume_le, bounded.previousVolume⟩
  | volumeDown =>
    exact ⟨UInt32.le_trans volume_volumeDown_le bounded.volume, bounded.previousVolume⟩
  | toggleMute =>
    change Bounded vc.toggleMute
    rw [VolumeController.toggleMute]
    split
    · exact ⟨bounded.previousVolume, bounded.previousVolume⟩
    · exact ⟨UInt32.zero_le, bounded.volume⟩

theorem bounded_controller (ops : List VolumeOp) : Bounded (controller ops) := by
  induction ops with
  | nil => exact ⟨by decide, by decide⟩
  | cons op ops ih => exact ih.apply op

end Volumes

/-! ### Mute -/

section Mute

variable {ops : List VolumeOp}

theorem wanted_setVolume (vol : UInt32) (ops : List VolumeOp) : wanted (.setVolume vol :: ops) =
    if (controller ops).muted then min vol maxVolume else wanted ops := rfl

theorem wanted_toggleMute (ops : List VolumeOp) : wanted (.toggleMute :: ops) =
    if (controller ops).muted then wanted ops else (controller ops).volume := rfl

theorem controller_mute (unmuted : (controller ops).muted = false) :
    controller (.toggleMute :: ops) =
      { controller ops with
        muted := true, previousVolume := (controller ops).volume, volume := 0 } := by
  rw [controller, VolumeOp.apply, VolumeController.toggleMute, unmuted]
  rfl

theorem controller_unmute (muted : (controller ops).muted = true) :
    controller (.toggleMute :: ops) =
      { controller ops with muted := false, volume := (controller ops).previousVolume } := by
  rw [controller, VolumeOp.apply, VolumeController.toggleMute, muted]
  rfl

/-- What is wanted at the end of a mute, as long as nothing has gone wrong in it: a level that has
been set is silence. -/
theorem wanted_of_proper (proper : ∀ past, past <:+ ops → Proper past)
    (muted : (controller ops).muted) :
    (SetWhileMuted ops → wanted ops = 0) ∧
      (¬ SetWhileMuted ops → wanted ops = (controller ops).previousVolume) := by
  induction ops with
  | nil => cases muted
  | cons op ops ih =>
    have earlier : ∀ past, past <:+ ops → Proper past := fun past suffix =>
      proper past (suffix.trans (List.suffix_cons op ops))
    cases op with
    | setVolume vol =>
      have before : (controller ops).muted := muted
      have silent : min vol maxVolume = 0 :=
        volume_setVolume.symm.trans ((proper _ (List.suffix_refl _)).2 muted)
      have set : SetWhileMuted (.setVolume vol :: ops) := .inl ⟨before, vol, rfl⟩
      refine ⟨fun _ => ?_, fun none => absurd set none⟩
      rw [wanted_setVolume, if_pos before, silent]
    | volumeUp => cases muted
    | volumeDown =>
      have same : SetWhileMuted (.volumeDown :: ops) ↔ SetWhileMuted ops := by
        simp [SetWhileMuted]
      rw [same]
      exact ih earlier muted
    | toggleMute =>
      have off : (controller ops).muted = false := by
        cases before : (controller ops).muted with
        | false => rfl
        | true =>
          rw [controller_unmute before] at muted
          cases muted
      have fresh : ¬ SetWhileMuted (.toggleMute :: ops) := by
        simp [SetWhileMuted]
      refine ⟨fun set => absurd set fresh, fun _ => ?_⟩
      rw [wanted_toggleMute, controller_mute off, off]
      rfl

/-- The end of a mute goes well iff a level set in it finds that it began in silence. -/
theorem unmute_iff (proper : ∀ past, past <:+ ops → Proper past)
    (muted : (controller ops).muted = true) :
    Proper (.toggleMute :: ops) ∧ Restores .toggleMute ops ↔ Keeps .toggleMute ops := by
  obtain ⟨whenSet, otherwise⟩ := wanted_of_proper proper muted
  constructor
  · rintro ⟨-, restores⟩ - set
    have restored := restores rfl muted
    rw [controller_unmute muted, whenSet set] at restored
    exact restored
  · intro keeps
    refine ⟨⟨(bounded_controller _).volume, fun on => ?_⟩, fun _ _ => ?_⟩
    · rw [controller_unmute muted] at on
      cases on
    · rw [controller_unmute muted]
      by_cases set : SetWhileMuted ops
      · exact (keeps muted set).trans (whenSet set).symm
      · exact (otherwise set).symm

/-- One operation goes well, after operations that all have, iff it keeps to what a mute asks. -/
theorem proper_and_restores_iff {op : VolumeOp} (proper : ∀ past, past <:+ ops → Proper past) :
    Proper (op :: ops) ∧ Restores op ops ↔ Keeps op ops := by
  have low : ∀ ops, (controller ops).volume ≤ maxVolume := fun ops =>
    (bounded_controller ops).volume
  have silent := (proper ops (List.suffix_refl _)).2
  cases op with
  | setVolume vol =>
    have level : (controller (.setVolume vol :: ops)).volume = min vol maxVolume := volume_setVolume
    constructor
    · rintro ⟨⟨-, zero⟩, -⟩ muted
      exact min_maxVolume_eq_zero.mp (level.symm.trans (zero muted))
    · intro keeps
      refine ⟨⟨low _, fun muted => ?_⟩, by rintro ⟨⟩⟩
      rw [level]
      exact min_maxVolume_eq_zero.mpr (keeps muted)
  | volumeUp =>
    refine ⟨fun _ _ => trivial, fun _ => ⟨⟨low _, fun muted => ?_⟩, by rintro ⟨⟩⟩⟩
    cases muted
  | volumeDown =>
    have less : (controller (.volumeDown :: ops)).volume ≤ (controller ops).volume :=
      volume_volumeDown_le
    refine ⟨fun _ _ => trivial, fun _ => ⟨⟨low _, fun muted => ?_⟩, by rintro ⟨⟩⟩⟩
    rw [silent muted] at less
    exact UInt32.le_zero_iff.mp less
  | toggleMute =>
    cases muted : (controller ops).muted with
    | true => exact unmute_iff proper muted
    | false =>
      have unmuted : (controller ops).muted ≠ true := Bool.eq_false_iff.mp muted
      refine ⟨fun _ on => absurd on unmuted, fun _ => ⟨⟨low _, fun _ => ?_⟩, fun _ on =>
        absurd on unmuted⟩⟩
      rw [controller_mute muted]

end Mute

/-- **The volume is one that there is, it is zero while the device is muted, and the end of a mute
restores the level wanted, iff** nothing but silence is set while the device is muted, and that
only in a mute that began in silence, or that `volume_up` ends. -/
theorem muting_iff (ops : List VolumeOp) :
    ((∀ past, past <:+ ops → Proper past) ∧
        ∀ op past, op :: past <:+ ops → Restores op past) ↔
      ∀ op past, op :: past <:+ ops → Keeps op past := by
  induction ops with
  | nil =>
    refine ⟨fun _ => forall_moments_nil, fun _ => ⟨fun past suffix => ?_, forall_moments_nil⟩⟩
    cases List.suffix_nil.mp suffix
    exact ⟨by decide, by rintro ⟨⟩⟩
  | cons op ops ih =>
    rw [forall_moments_cons, forall_moments_cons, ← ih]
    constructor
    · rintro ⟨proper, restores, earlier⟩
      have before : ∀ past, past <:+ ops → Proper past := fun past suffix =>
        proper past (suffix.trans (List.suffix_cons op ops))
      exact ⟨(proper_and_restores_iff before).mp ⟨proper _ (List.suffix_refl _), restores⟩,
        before, earlier⟩
    · rintro ⟨keeps, before, earlier⟩
      obtain ⟨now, restores⟩ := (proper_and_restores_iff before).mpr keeps
      refine ⟨fun past suffix => ?_, restores, earlier⟩
      rcases List.suffix_cons_iff.mp suffix with same | older
      · rw [same]
        exact now
      · exact before past older

/-- A mute, and a level set in it: the device is muted at volume 50, and the level is forgotten
when the mute ends. -/
theorem not_proper_set_while_muted :
    ¬ Proper [.setVolume 50, .toggleMute] ∧ ¬ Restores .toggleMute [.setVolume 50, .toggleMute] := by
  refine ⟨fun proper => absurd (proper.2 rfl) (by decide), fun restores => ?_⟩
  exact absurd (restores rfl rfl) (by decide)

end Audiod
