import UosTv.Rust.Numbers
import UosTv.Stardust.Params

/-!
The brightness of the display (`dispald`, `main.rs`).

The level of a command is cut to 32 bits before it is limited to 100, and the product with the
greatest brightness of a device has 32 bits again. What is written is the exact part of the
greatest brightness iff neither of them loses anything that counts (`setBrightness_iff`).
-/

namespace Dispald

open Rust SerdeJson Stardust

/-- An entry of `/sys/class/backlight`: its path, and its `max_brightness` if it can be read. -/
structure Backlight where
  path : String
  maxBrightness : Option String
deriving DecidableEq, Repr

namespace Backlight

variable (light : Backlight)

/-- The greatest brightness. -/
def max : UInt32 := (((light.maxBrightness.map trim).bind parseU32).map UInt32.ofNat).getD 255

/-- The file that the brightness is written to. -/
def brightness : String := join light.path "brightness"

end Backlight

/-- The value for a device with the greatest brightness `max`, at a level of at most 100. A
product that overflows panics with overflow checks. -/
def value (checks : Bool) (max level : UInt32) : Option UInt32 :=
  (mulU32 checks max level).map fun product => min (product / 100) max

/-- What the loop over the devices writes, and whether it gets to the end. -/
@[ext]
structure Outcome where
  writes : List (String × String)
  finished : Bool
deriving DecidableEq, Repr

/-- The loop over the devices. Where nothing can be listed there are none, and what becomes of a
write is ignored. -/
def writeAll (checks : Bool) (level : UInt32) : List Backlight → Outcome
  | [] => ⟨[], true⟩
  | light :: lights =>
    match value checks light.max level with
    | none => ⟨[], false⟩
    | some val =>
      let rest := writeAll checks level lights
      ⟨(light.brightness, toString val.toNat) :: rest.writes, rest.finished⟩

def setBrightness (checks : Bool) (lights : List Backlight) (level : UInt32) : Outcome :=
  writeAll checks (min level 100) lights

/-- `params["level"].as_u64()`. -/
def levelOf (params : Value) : Option UInt64 :=
  match params with
  | .object map =>
    match SerdeJson.get map "level" with
    | some (.number (.posInt n)) => some n
    | _ => none
  | _ => none

/-- A command that the task receives. The night mode is only logged. -/
def handleCommand (formats : Formats) (checks : Bool) (lights : List Backlight) (msg : Message) :
    Outcome :=
  match formats.fromSlice msg.params with
  | .ok params =>
    if msg.method = "display.command.set_brightness" then
      match levelOf params with
      | some lvl => setBrightness checks lights lvl.toUInt32
      | none => ⟨[], true⟩
    else ⟨[], true⟩
  | .error _ => ⟨[], true⟩

/-! ### One device -/

/-- The exact part of the greatest brightness. -/
def exact (max : UInt32) (level : UInt64) : Nat := max.toNat * min level.toNat 100 / 100

/-- Neither the 32 bits of the level nor those of the product lose anything that counts. -/
def Fits (max : UInt32) (level : UInt64) : Prop :=
  (level.toNat < 2 ^ 32 ∨ 100 ≤ level.toNat % 2 ^ 32 ∨ max = 0) ∧
    max.toNat * min (level.toNat % 2 ^ 32) 100 < 2 ^ 32

instance (max : UInt32) (level : UInt64) : Decidable (Fits max level) :=
  inferInstanceAs (Decidable (_ ∧ _))

section Device

variable {checks : Bool} {max : UInt32} {level : UInt64}

theorem toNat_min {a b : UInt32} : (min a b).toNat = min a.toNat b.toNat := by
  change (if a ≤ b then a else b).toNat = _
  split
  · rename_i le
    exact (Nat.min_eq_left (UInt32.le_iff_toNat_le.mp le)).symm
  · rename_i more
    have less : ¬ a.toNat ≤ b.toNat := fun le => more (UInt32.le_iff_toNat_le.mpr le)
    omega

theorem exact_le : exact max level ≤ max.toNat := by
  have part : max.toNat * min level.toNat 100 ≤ max.toNat * 100 :=
    Nat.mul_le_mul_left _ (Nat.min_le_right _ _)
  rw [exact]
  omega

theorem exact_mono {more : UInt64} (le : level ≤ more) : exact max level ≤ exact max more := by
  have le := UInt64.le_iff_toNat_le.mp le
  exact Nat.div_le_div_right (Nat.mul_le_mul_left _ (by omega))

/-- A level that is cut to something else below 100 gives less. -/
theorem cut_eq_iff :
    max.toNat * min (level.toNat % 2 ^ 32) 100 / 100 = exact max level ↔
      level.toNat < 2 ^ 32 ∨ 100 ≤ level.toNat % 2 ^ 32 ∨ max = 0 := by
  constructor
  · intro same
    by_contra cut
    obtain ⟨large, cut⟩ := not_or.mp cut
    obtain ⟨below, positive⟩ := not_or.mp cut
    have whole : min level.toNat 100 = 100 := by omega
    have some_brightness : max.toNat ≠ 0 := fun zero => positive (UInt32.toNat_inj.mp zero)
    have less : max.toNat * min (level.toNat % 2 ^ 32) 100 ≤ max.toNat * 99 :=
      Nat.mul_le_mul_left _ (by omega)
    rw [exact, whole] at same
    omega
  · rintro (small | whole | rfl)
    · rw [exact, Nat.mod_eq_of_lt small]
    · have above : 100 ≤ level.toNat := whole.trans (Nat.mod_le _ _)
      rw [exact, Nat.min_eq_right whole, Nat.min_eq_right above]
    · simp [exact]

/-- What is written to a device is exact iff nothing that counts is lost. -/
theorem value_exact_iff (checks : Bool) :
    (∃ val, value checks max (min level.toUInt32 100) = some val ∧ val.toNat = exact max level) ↔
      Fits max level := by
  have cut : (min level.toUInt32 100).toNat = min (level.toNat % 2 ^ 32) 100 := by
    rw [toNat_min, UInt64.toNat_toUInt32]
    rfl
  have fewer : max.toNat * min (level.toNat % 2 ^ 32) 100 ≤ max.toNat * min level.toNat 100 :=
    Nat.mul_le_mul_left _ (by omega)
  have written : (min (max * min level.toUInt32 100 / 100) max).toNat =
      min (max.toNat * min (level.toNat % 2 ^ 32) 100 % 2 ^ 32 / 100) max.toNat := by
    rw [toNat_min, UInt32.toNat_div, UInt32.toNat_mul, cut]
    rfl
  rw [value, mulU32, cut, Fits, ← cut_eq_iff]
  by_cases fits : max.toNat * min (level.toNat % 2 ^ 32) 100 < 2 ^ 32
  · have all : max.toNat * min (level.toNat % 2 ^ 32) 100 / 100 ≤ max.toNat :=
      (Nat.div_le_div_right fewer).trans exact_le
    rw [if_neg (fun overflow => absurd fits (Nat.not_lt.mpr overflow.2)), and_iff_left fits]
    rw [Nat.mod_eq_of_lt fits, Nat.min_eq_left all] at written
    simp [written]
  · refine iff_of_false ?_ fun fits' => fits fits'.2
    rintro ⟨val, some_val, same⟩
    split at some_val
    · cases some_val
    · cases some_val
      rw [written, exact] at same
      omega

end Device

/-! ### All devices -/

section Devices

variable {lights : List Backlight} {level : UInt64}

theorem repr_inj {m n : Nat} : m.repr = n.repr ↔ m = n := by
  refine ⟨fun same => ?_, congrArg Nat.repr⟩
  have read := congrArg (fun text => Nat.ofDigitChars 10 text.toList 0) same
  simpa only [Nat.toList_repr, Nat.ofDigitChars_ten_toDigits] using read

theorem writeAll_eq_iff (checks : Bool) :
    writeAll checks (min level.toUInt32 100) lights =
        ⟨lights.map fun light => (light.brightness, toString (exact light.max level)), true⟩ ↔
      ∀ light ∈ lights, Fits light.max level := by
  induction lights with
  | nil => simp [writeAll]
  | cons light lights ih =>
    rw [List.forall_mem_cons, ← ih, ← value_exact_iff checks, writeAll]
    cases some_val : value checks light.max (min level.toUInt32 100) with
    | none => simp
    | some val =>
      simp only [Outcome.ext_iff, List.map_cons, List.cons.injEq, Prod.mk.injEq, true_and,
        Option.some.injEq, exists_eq_left', and_assoc]
      exact and_congr_left' repr_inj

end Devices

/-- **All devices get the exact part of their greatest brightness iff** for each of them the level
is below `2 ^ 32`, or still 100 when it is cut, and the product fits. The exact part is no more
than the greatest brightness, and more at a higher level. -/
theorem setBrightness_iff (formats : Formats) (checks : Bool) (lights : List Backlight)
    (msg : Message) (params : Value) (level : UInt64)
    (command : msg.method = "display.command.set_brightness")
    (read : formats.fromSlice msg.params = .ok params) (given : levelOf params = some level) :
    (handleCommand formats checks lights msg =
        ⟨lights.map fun light => (light.brightness, toString (exact light.max level)), true⟩ ↔
      ∀ light ∈ lights, Fits light.max level) ∧
    ∀ max more, exact max level ≤ max.toNat ∧ (level ≤ more → exact max level ≤ exact max more) := by
  refine ⟨?_, fun max more => ⟨exact_le, exact_mono⟩⟩
  rw [← writeAll_eq_iff checks, handleCommand, read]
  simp only [if_pos command, given, setBrightness]

/-- The parameters of a command with a level. -/
def levelParams (level : UInt64) : Value := record [("level", .number (.posInt level))]

def command (level : UInt64) : Message :=
  { Message.new ⟨1, 1⟩ "display.command.set_brightness" with
    params := asBytes (String.ofList (print (levelParams level))) }

theorem read_command (level : UInt64) :
    textFormats.fromSlice (command level).params = .ok (levelParams level) := by
  have canonical : Canonical (levelParams level) :=
    canonical_record (by simpa using Canonical.posInt level) (by simp)
  have renders := (renders_print canonical).item_of_value
  rw [command, textFormats_of_renders renders]

/-- The backlight of a panel with 4096 steps. -/
def panel : Backlight := ⟨"/sys/class/backlight/panel", some "4095\n"⟩

theorem setBrightness_half : handleCommand textFormats false [panel] (command 50) =
    ⟨[("/sys/class/backlight/panel/brightness", "2047")], true⟩ := by
  have all := (setBrightness_iff textFormats false [panel] (command 50) _ 50 rfl (read_command 50)
    rfl).1.mpr
  rw [all (by decide)]
  decide

/-- The level `2 ^ 32` turns the display off, and a device of the greatest maximum is not at all
as bright as it should be at the level 100. -/
theorem setBrightness_cut :
    handleCommand textFormats false [panel] (command 4294967296) =
      ⟨[("/sys/class/backlight/panel/brightness", "0")], true⟩ ∧
    exact panel.max 4294967296 = 4095 ∧
    value false 4294967295 100 = some 42949671 ∧ value true 4294967295 100 = none ∧
    exact 4294967295 100 = 4294967295 := by
  refine ⟨?_, by decide⟩
  rw [handleCommand, read_command]
  decide

end Dispald
