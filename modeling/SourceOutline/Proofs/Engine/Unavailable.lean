import SourceOutline.Proofs.Engine.Runs
import SourceOutline.Proofs.FileTree.Obstacles

/-! How bringing up the engine fails: the engine is unavailable, or there is no place to install it in. -/

namespace SourceOutline

/-- The failure is that the engine cannot be found, installed or started. -/
def Failure.IsUnavailable (failure : Failure) : Prop :=
  ∃ text, failure = .engineUnavailable text

/-- An unavailable engine concerns every file. -/
theorem Failure.IsUnavailable.isRecoverable {failure : Failure} (unavailable : failure.IsUnavailable) :
    failure.isRecoverable = false := by
  obtain ⟨text, rfl⟩ := unavailable
  rfl

namespace Engine

/-- The engine is to be installed because it was not found, and its directory cannot be made. -/
structure HasNoPlace (settings : EngineSettings) (machine : Machine) (problem : FileProblem) : Prop where
  /-- It is to be installed. -/
  wanted : settings.autoInstall = true
  /-- It was not found. -/
  missing : (probe settings machine).1 = false
  /-- The directory cannot be made, for this reason. -/
  refused : (probe settings machine).2.disk.createDirectories settings.directory = .error problem

/-- Without a place for it the engine is not installed, and no installer is started. -/
theorem HasNoPlace.bringUp {settings : EngineSettings} (valid : settings.validate = .ok ()) {machine : Machine}
    {problem : FileProblem} (noPlace : HasNoPlace settings machine problem) :
    bringUp settings machine = (.error (.file problem), (probe settings machine).2) := by
  obtain ⟨wanted, missing, refused⟩ := noPlace
  have denied : install settings (probe settings machine).2 =
      (.error (.file problem), (probe settings machine).2) := by rw [install_apply, refused]
  rw [bringUp_of_valid valid]
  rcases found : probe settings machine with ⟨answer, looked⟩
  rw [found] at missing denied
  obtain rfl : answer = false := missing
  simp only [Bool.false_eq_true, if_false, wanted, Bool.not_true, denied]

end Engine

end SourceOutline
