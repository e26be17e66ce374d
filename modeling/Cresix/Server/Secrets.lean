import Cresix.Core.Manifest
import Cresix.Server.Api

/-!
# Names of secrets

The server keeps the names of secrets and a manifest refers to them, and each
side has its own check.  Both want capitals, digits and underscores.  The
manifest does not let a name begin with a digit, since it is the name of an
environment variable, and the server does (`verdicts_agree_iff`).
-/

namespace Cresix.Server

open Core (ProjectManifest SecretDeclaration SecretName)

/-- Some manifest is valid and refers to the secret. -/
def Referable (name : String) : Prop :=
  ∃ manifest : ProjectManifest, manifest.validate = .ok () ∧
    ∃ service ∈ manifest.services, name ∈ service.secrets

/-- The server and the manifest take the name, or neither of them does. -/
structure VerdictsAgree (name : String) : Prop where
  checks : validateSecretName name = .ok () ↔ Core.validateSecretName name = .ok ()
  /-- What can be stored can be referred to, and the other way round. -/
  referable : validateSecretName name = .ok () ↔ Referable name

/-- A name that begins with a digit and is otherwise well formed. -/
structure DigitFirst (name : String) : Prop where
  first : ∃ byte ∈ (Rust.bytes name).head?, Rust.isAsciiDigit byte = true
  /-- Capitals, digits and underscores. -/
  bytes : ∀ byte ∈ Rust.bytes name, Rust.isAsciiUppercase byte = true ∨
    Rust.isAsciiDigit byte = true ∨ byte = 0x5f

section

variable {name : String}

theorem validateSecretName_eq_ok :
    validateSecretName name = .ok () ↔ Rust.len name ≤ 128 ∧ name ≠ "" ∧
      ∀ byte ∈ Rust.bytes name, Rust.isAsciiUppercase byte = true ∨
        Rust.isAsciiDigit byte = true ∨ byte = 0x5f := by
  simp only [validateSecretName, require_eq_ok, Bool.and_eq_true, decide_eq_true_eq,
    Bool.not_eq_true', String.isEmpty_eq_false_iff, List.all_eq_true, Bool.or_eq_true, beq_iff_eq,
    or_assoc, and_assoc]

/-! ## What a manifest can refer to -/

/-- A manifest that declares one secret and has one service that uses it. -/
def manifestOf (name : String) : ProjectManifest where
  version := 1
  build := ⟨.auto, none⟩
  services := [⟨"web", "run", 80, [name], ⟨.finite 1, 1⟩⟩]
  jobs := []
  secrets := .insert .empty name ⟨""⟩

/-- The names that valid manifests refer to are those that the manifest's own check takes. -/
theorem referable_iff : Referable name ↔ Core.validateSecretName name = .ok () := by
  rw [Core.validateSecretName_eq_ok]
  constructor
  · rintro ⟨manifest, hvalid, service, hservice, hname⟩
    have hrules := (ProjectManifest.validate_iff manifest).mp hvalid
    obtain ⟨declaration, hdeclared⟩ := (hrules.services service hservice).secrets name hname
    exact hrules.secretNames _ hdeclared
  · intro h
    have hdeclared : (name, SecretDeclaration.mk "") ∈ (manifestOf name).secrets.entries :=
      SortedMap.get?_eq_some_iff.mp SortedMap.get?_insert_self
    have hweb : Core.RuntimeName "web" := Core.validateName_eq_ok.mp (by decide)
    have hrun : ¬Core.Blank "run" := fun hblank =>
      absurd (hblank 'r' (by decide)) (by decide)
    refine ⟨manifestOf name, (ProjectManifest.validate_iff _).mpr ?_, _, List.mem_cons_self,
      List.mem_singleton_self name⟩
    exact {
      version := rfl
      dockerfile := fun hstrategy => by cases hstrategy
      secretNames := by
        intro entry hentry
        obtain rfl : entry = (name, ⟨""⟩) := List.mem_singleton.mp hentry
        exact h
      services := by
        intro service hservice
        obtain rfl := List.mem_singleton.mp hservice
        exact {
          name := hweb
          port := Nat.succ_ne_zero 79
          command := hrun
          resources := ⟨⟨1, rfl, by decide⟩, Nat.one_pos⟩
          secrets := by
            intro other hother
            obtain rfl := List.mem_singleton.mp hother
            exact ⟨_, hdeclared⟩ }
      jobs := fun job hjob => absurd hjob List.not_mem_nil
      names := List.nodup_singleton "web" }

/-! ## Where the two sides differ -/

/-- The server takes what the manifest takes, and names that begin with a digit. -/
theorem validateSecretName_iff (hlen : Rust.len name ≤ 128) :
    validateSecretName name = .ok () ↔ Core.validateSecretName name = .ok () ∨ DigitFirst name := by
  rw [validateSecretName_eq_ok, Core.validateSecretName_eq_ok]
  constructor
  · rintro ⟨-, hne, hbytes⟩
    by_cases hdigit : ∃ byte ∈ (Rust.bytes name).head?, Rust.isAsciiDigit byte = true
    · exact .inr ⟨hdigit, hbytes⟩
    · refine .inl ⟨hne, hbytes, fun byte hbyte => ?_⟩
      exact Bool.eq_false_iff.mpr fun htrue => hdigit ⟨byte, hbyte, htrue⟩
  · rintro (h | h)
    · exact ⟨hlen, h.nonempty, h.bytes⟩
    · refine ⟨hlen, ?_, h.bytes⟩
      rintro rfl
      obtain ⟨byte, hbyte, -⟩ := h.first
      cases hbyte

theorem not_manifest_of_digitFirst (h : DigitFirst name) :
    Core.validateSecretName name ≠ .ok () := by
  intro hok
  obtain ⟨byte, hbyte, hdigit⟩ := h.first
  have hnot := (Core.validateSecretName_eq_ok.mp hok).first byte hbyte
  rw [hdigit] at hnot
  cases hnot

/-- The two checks agree on a name if and only if it does not begin with a digit, or is not well
formed anyway. -/
theorem verdicts_agree_iff (hlen : Rust.len name ≤ 128) :
    VerdictsAgree name ↔ ¬DigitFirst name := by
  constructor
  · intro h hdigit
    exact not_manifest_of_digitFirst hdigit
      (h.checks.mp ((validateSecretName_iff hlen).mpr (.inr hdigit)))
  · intro hdigit
    have hchecks : validateSecretName name = .ok () ↔ Core.validateSecretName name = .ok () :=
      (validateSecretName_iff hlen).trans (or_iff_left hdigit)
    exact ⟨hchecks, hchecks.trans referable_iff.symm⟩

end

theorem verdicts_agree_iff_token : VerdictsAgree "API_TOKEN_2" ↔ ¬DigitFirst "API_TOKEN_2" :=
  verdicts_agree_iff (by decide)

/-- The server stores the name `2FA_KEY`, and no manifest can refer to it. -/
theorem digit_first_stored :
    Rust.len "2FA_KEY" ≤ 128 ∧ validateSecretName "2FA_KEY" = .ok () ∧
      Core.validateSecretName "2FA_KEY" ≠ .ok () ∧ ¬VerdictsAgree "2FA_KEY" := by
  have hserver : validateSecretName "2FA_KEY" = .ok () := by decide
  have hdigit : DigitFirst "2FA_KEY" :=
    ⟨⟨0x32, by decide, by decide⟩, (validateSecretName_eq_ok.mp hserver).2.2⟩
  have hmanifest := not_manifest_of_digitFirst hdigit
  exact ⟨by decide, hserver, hmanifest, fun h => hmanifest (h.checks.mp hserver)⟩

end Cresix.Server
