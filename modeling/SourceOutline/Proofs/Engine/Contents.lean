import SourceOutline.Proofs.Engine.Runs
import SourceOutline.Proofs.FileTree.Resolution

/-! What files hold while the engine is brought up. -/

namespace SourceOutline

namespace Machine

/-- Programs leave what files hold, of those with given paths. -/
def Spares (machine : Machine) (paths : List String) : Prop :=
  ∀ runs disk start later milliseconds report,
    machine.react runs disk start = .ran later milliseconds report →
      ∀ path ∈ paths, ∀ content, disk.read path = .ok content → later.read path = .ok content

/-- Files with given paths hold what they held, on a machine with the same programs. -/
structure Saves (paths : List String) (before after : Machine) : Prop where
  /-- The programs are the same. -/
  programs : after.react = before.react
  /-- The files hold what they held. -/
  contents : ∀ path ∈ paths, ∀ content,
    before.disk.read path = .ok content → after.disk.read path = .ok content

namespace Saves

variable {paths : List String}

/-- Nothing happened to the files. -/
theorem refl (machine : Machine) : Saves paths machine machine :=
  ⟨rfl, fun _ _ _ holds => holds⟩

/-- What is saved and saved again is saved. -/
theorem trans {first second third : Machine} (early : Saves paths first second)
    (late : Saves paths second third) : Saves paths first third :=
  ⟨late.programs.trans early.programs, fun path member content holds =>
    late.contents path member content (early.contents path member content holds)⟩

/-- The same programs still leave what files hold. -/
theorem spares {before after : Machine} (saves : Saves paths before after)
    (spares : before.Spares paths) : after.Spares paths := by
  rw [Spares, saves.programs]
  exact spares

end Saves

variable {machine : Machine} {paths : List String} (spares : machine.Spares paths)

include spares

/-- A program that leaves files alone does so when it is launched. -/
theorem Spares.launch (start : Start) (limit : Nat) :
    Saves paths machine (Machine.launch start limit machine).2 := by
  rw [Machine.launch]
  cases reacts : machine.reaction start with
  | refused problem => exact .refl machine
  | ran disk milliseconds report =>
    -- The disk is what the program left, whether or not it ended in time.
    refine ⟨rfl, fun path member content holds => ?_⟩
    rw [reaction] at reacts
    split at reacts
    · cases reacts
    · exact spares _ _ _ _ _ _ reacts path member content holds

/-- Looking for the engine leaves what files hold. -/
theorem Spares.probe (settings : EngineSettings) :
    Saves paths machine (Engine.probe settings machine).2 := by
  rw [Engine.probe_apply]
  split
  · exact spares.launch _ _
  · exact .refl machine

/-- Installing the engine leaves what files hold. -/
theorem Spares.install (settings : EngineSettings) :
    Saves paths machine (Engine.install settings machine).2 := by
  rw [Engine.install_apply]
  cases made : machine.disk.createDirectories settings.directory with
  | error problem => exact .refl machine
  | ok disk =>
    -- The directory is made before the installer runs, and stands in the way of no file.
    have kept : Saves paths machine { machine with disk := disk } :=
      ⟨rfl, fun _ _ _ holds => (Disk.keeps_createDirectories made).read holds⟩
    exact kept.trans (Spares.launch (kept.spares spares) _ _)

/-- Bringing up the engine leaves what files hold. -/
theorem Spares.bringUp (settings : EngineSettings) :
    Saves paths machine (Engine.bringUp settings machine).2 := by
  cases valid : settings.validate with
  | error failure =>
    rw [Engine.bringUp_of_invalid valid]
    exact .refl machine
  | ok _ =>
    rw [Engine.bringUp_of_valid valid]
    -- Up to three programs run, each on what the one before has left.
    have first := spares.probe settings
    rcases found : Engine.probe settings machine with ⟨_ | _, looked⟩ <;> rw [found] at first
    · cases settings.autoInstall with
      | false => exact first
      | true =>
        have second := first.trans (Spares.install (first.spares spares) settings)
        simp only [Bool.false_eq_true, if_false, Bool.not_true]
        rcases done : Engine.install settings looked with ⟨failure | _, installed⟩ <;>
          rw [done] at second
        · exact second
        · exact second.trans (Spares.probe (second.spares spares) settings)
    · exact first

end Machine

end SourceOutline
