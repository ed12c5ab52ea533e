import Tern.Ssh.KnownHosts
import Tern.SshConfig.Parse

/-! Host-pattern globbing, in the known hosts and in the configuration: when it is right. -/

namespace Tern

/-- A value belongs to the language of a pattern. -/
def Denotes (pattern value : String) : Prop :=
  value.toList ∈ Wildcard.language '*' '?' pattern.toList

/--
A value can be read along a pattern so that every star in front of a literal star takes just that.

A star in front of anything else, or of nothing, spans any run.
-/
def ReadsDirectly (pattern value : String) : Prop :=
  Wildcard.Direct '*' '?' pattern.toList value.toList

/-- The loops of a matcher end with its answer, and never look outside the pattern or the value. -/
def GlobEnds (globMatch : String → String → Bool) (pattern value : String) : Prop :=
  ∃ enough, ∀ count, enough ≤ count →
    Wildcard.turns '*' '?' pattern.toList value.toList count (.scanning ⟨0, 0, none, 0⟩) =
      .answer (globMatch pattern value)

/-- What a matcher owes to a pattern and a value. -/
structure GlobsRightly (globMatch : String → String → Bool) (pattern value : String) : Prop where
  ends : GlobEnds globMatch pattern value
  decides : globMatch pattern value = true ↔ Denotes pattern value

/-- The matcher that both files have ends with its answer. -/
theorem globEnds (pattern value : String) :
    GlobEnds (fun pattern value => Wildcard.isMatch '*' '?' pattern.toList value.toList)
      pattern value :=
  ⟨Wildcard.turnsFuel pattern.toList value.toList, fun _ enough =>
    Wildcard.turns_eq (by decide) enough⟩

/--
Both matchers always end with an answer, and within their lists.

The answer is right exactly when the value does not belong to the pattern,
or can be read along it with each star in front of a literal star taking just that.
-/
theorem glob_match_right_iff (pattern value : String) :
    GlobEnds KnownHosts.globMatch pattern value ∧ GlobEnds SshConfig.globMatch pattern value ∧
      (GlobsRightly KnownHosts.globMatch pattern value ↔
        (Denotes pattern value → ReadsDirectly pattern value)) ∧
      (GlobsRightly SshConfig.globMatch pattern value ↔
        (Denotes pattern value → ReadsDirectly pattern value)) := by
  -- Both files have the same loop, so one argument about it does for both.
  have ends := globEnds pattern value
  have right : (Wildcard.isMatch '*' '?' pattern.toList value.toList = true ↔
      Denotes pattern value) ↔ (Denotes pattern value → ReadsDirectly pattern value) :=
    Wildcard.isMatch_correct_iff (by decide)
  refine ⟨ends, ends, ?_, ?_⟩
  · exact ⟨fun rightly => right.mp rightly.decides, fun direct => ⟨ends, right.mpr direct⟩⟩
  · exact ⟨fun rightly => right.mp rightly.decides, fun direct => ⟨ends, right.mpr direct⟩⟩

/-- A star alone does not match a name that starts with one, though it stands for every name. -/
theorem star_misses_starred_name :
    ¬GlobsRightly KnownHosts.globMatch "*" "*backup" ∧
      ¬GlobsRightly SshConfig.globMatch "*" "*backup" := by
  -- The star may span all seven characters, and nothing is left behind it.
  have denotes : Denotes "*" "*backup" :=
    (Wildcard.mem_language_star '*' '?' [] _).mpr
      ⟨7, by decide, (Wildcard.mem_language_nil '*' '?' _).mpr (by decide)⟩
  refine ⟨fun rightly => ?_, fun rightly => ?_⟩
  · exact absurd (rightly.decides.mpr denotes) (by decide)
  · exact absurd (rightly.decides.mpr denotes) (by decide)

end Tern
