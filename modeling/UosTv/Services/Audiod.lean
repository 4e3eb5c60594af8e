import UosTv.Stardust.Params

/-!
The volume of the device (`audiod`, `volume.rs` and `main.rs`).

The mixer of the sound card is told the volume after every change; nothing is read from it, so
it is left out.
-/

namespace Audiod

open SerdeJson Stardust

def minVolume : UInt32 := 0

def maxVolume : UInt32 := 100

def defaultVolume : UInt32 := 70

def volumeStep : UInt32 := 5

structure VolumeController where
  volume : UInt32
  muted : Bool
  previousVolume : UInt32
deriving DecidableEq, Repr

namespace VolumeController

variable (vc : VolumeController)

def new : VolumeController where
  volume := defaultVolume
  muted := false
  previousVolume := defaultVolume

def setVolume (vol : UInt32) : VolumeController :=
  { vc with volume := max (min vol maxVolume) minVolume }

def volumeUp : VolumeController :=
  { vc with volume := min (vc.volume + volumeStep) maxVolume, muted := false }

/-- `saturating_sub` stops at zero. -/
def volumeDown : VolumeController :=
  { vc with volume := max (if volumeStep ≤ vc.volume then vc.volume - volumeStep else 0) minVolume }

def toggleMute : VolumeController :=
  if vc.muted then { vc with muted := false, volume := vc.previousVolume }
  else { vc with muted := true, previousVolume := vc.volume, volume := 0 }

/-- What `publish_state` attaches. -/
def payload : Value := record [
  ("volume", Serde.toValue vc.volume),
  ("muted", .bool vc.muted),
  ("min_volume", Serde.toValue minVolume),
  ("max_volume", Serde.toValue maxVolume)]

theorem canonical_payload : Canonical vc.payload := by
  refine canonical_record ?_ (by simp)
  simp only [List.forall_mem_cons]
  exact ⟨.posInt _, .bool _, .posInt _, .posInt _, List.forall_mem_nil _⟩

/-- `publish_state`. -/
def publishState (formats : Formats) (stamp : Stamp) : Option Message :=
  statusMessage formats stamp "audio.status" "audiod" vc.payload

/-- `handle_command`, with the message that is published after it. -/
def handleCommand (formats : Formats) (stamp : Stamp) (msg : Message) :
    VolumeController × Option Message :=
  if msg.method = "audio.command.set_volume" then
    match (formats.read msg.params : Option UInt32) with
    | some vol => (vc.setVolume vol, (vc.setVolume vol).publishState formats stamp)
    | none => (vc, none)
  else if msg.method = "audio.command.mute" then
    (vc.toggleMute, vc.toggleMute.publishState formats stamp)
  else if msg.method = "audio.command.volume_up" then
    (vc.volumeUp, vc.volumeUp.publishState formats stamp)
  else if msg.method = "audio.command.volume_down" then
    (vc.volumeDown, vc.volumeDown.publishState formats stamp)
  else (vc, none)

/-- A volume that is not a number is ignored. -/
theorem handleCommand_of_unread {vc : VolumeController} {formats : Formats} {stamp : Stamp}
    {msg : Message} (command : msg.method = "audio.command.set_volume")
    (unread : (formats.read msg.params : Option UInt32) = none) :
    vc.handleCommand formats stamp msg = (vc, none) := by
  rw [handleCommand, if_pos command, unread]

end VolumeController

end Audiod
