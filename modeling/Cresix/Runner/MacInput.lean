import Cresix.Library.Checks
import Cresix.Runner.Signing
import Cresix.Rust.Lines

/-!
# The input of the authentication code

The code of an envelope is taken over one text, in which the fields stand one
after the other with newlines between them.  The payload may hold any
characters, but it comes last, and no field before it holds a newline: the
identifier and the time are written by the code itself, and a nonce that is
Base64 has no newline either.  So the text tells the fields apart
(`signingInput_injective`).
-/

namespace Cresix.Runner

open Rust (Uuid)

/-- What the verifier knows of an envelope when it computes the code. -/
structure SignedEnvelope.Checked (envelope : SignedEnvelope) : Prop where
  version : envelope.version = protocolVersion
  /-- The nonce is Base64 for 16 bytes. -/
  nonce : ∃ bytes, Rust.Base64.urlSafeNoPad (Rust.bytes envelope.nonce) = some bytes ∧
    bytes.length = 16

/-- An envelope that gets as far as its code is checked. -/
theorem checked_of_verifyStateless {crates : Crates} {key : List UInt8} {envelope : SignedEnvelope}
    {now : Int} (h : verifyStateless (crates.primitives key) envelope now = .ok ()) :
    envelope.Checked := by
  simp only [verifyStateless] at h
  split at h
  next => cases h
  next hversion =>
    split at h
    next => cases h
    next =>
      split at h
      next => cases h
      next nonce hdecode =>
        split at h
        next => cases h
        next hlength =>
          simp only [Crates.primitives] at hdecode
          split at hdecode
          next bytes hbytes =>
            cases hdecode
            exact ⟨not_not.mp hversion, nonce, hbytes, not_not.mp hlength⟩
          next => cases hdecode

/-! ## The fields -/

theorem newline_notMem_hexDigits (count n : Nat) : '\n' ∉ Rust.hexDigits count n := by
  intro hmem
  obtain ⟨d, hd, heq⟩ := Rust.mem_hexDigits hmem
  have hdigits : ∀ d < 16, '\n' ≠ Nat.digitChar d := by decide
  exact hdigits d hd heq

theorem newline_notMem_hyphenated (id : Uuid) : '\n' ∉ (Rust.hyphenated id).toList := by
  simp [Rust.hyphenated, newline_notMem_hexDigits]

theorem hyphenated_injective {a b : Uuid} (h : Rust.hyphenated a = Rust.hyphenated b) : a = b := by
  refine BitVec.eq_of_toNat_eq ?_
  rw [← Rust.ofHex_hyphenated, h, Rust.ofHex_hyphenated]

theorem newline_notMem_repr (i : Int) : '\n' ∉ i.repr.toList := by
  have hnat : ∀ n : Nat, '\n' ∉ n.repr.toList := by
    intro n hmem
    rw [Nat.toList_repr] at hmem
    exact absurd (Nat.isDigit_of_mem_toDigits (by decide) (by decide) hmem) (by decide)
  cases i with
  | ofNat n => exact hnat n
  | negSucc n =>
      show '\n' ∉ ("-" ++ (n + 1).repr).toList
      rw [String.toList_append, List.mem_append, not_or]
      exact ⟨by decide, hnat (n + 1)⟩

theorem repr_injective {i j : Int} (h : i.repr = j.repr) : i = j := by
  have hnat : ∀ {m n : Nat}, m.repr = n.repr → m = n := by
    intro m n h
    have hdigits := congrArg (fun s => Nat.ofDigitChars 10 (String.toList s) 0) h
    simpa only [Nat.toList_repr, Nat.ofDigitChars_ten_toDigits] using hdigits
  have hsign : ∀ m n : Nat, m.repr ≠ "-" ++ n.repr := by
    intro m n h
    have hmem : '-' ∈ Nat.toDigits 10 m := by
      rw [← Nat.toList_repr, h, String.toList_append]
      exact List.mem_append_left _ (by decide)
    exact absurd (Nat.isDigit_of_mem_toDigits (by decide) (by decide) hmem) (by decide)
  cases i with
  | ofNat m =>
      cases j with
      | ofNat n => exact congrArg Int.ofNat (hnat h)
      | negSucc n => exact absurd h (hsign m (n + 1))
  | negSucc m =>
      cases j with
      | ofNat n => exact absurd h.symm (hsign n (m + 1))
      | negSucc n =>
          have heq : m + 1 = n + 1 := hnat (String.append_right_inj "-" |>.mp h)
          rw [Nat.succ.inj heq]

/-- What decodes has no newline. -/
theorem newline_notMem_of_decode {nonce : String} {bytes : List UInt8}
    (h : Rust.Base64.urlSafeNoPad (Rust.bytes nonce) = some bytes) : '\n' ∉ nonce.toList := by
  intro hmem
  obtain ⟨values, hvalues, -⟩ := Option.bind_eq_some_iff.mp h
  have hbyte : (0x0a : UInt8) ∈ Rust.bytes nonce := Rust.mem_bytes_of_mem hmem (by decide)
  obtain ⟨value, hvalue⟩ := Checks.exists_of_mapM_eq_some hvalues _ hbyte
  have hnone : Rust.Base64.value 0x2d 0x5f 0x0a = none := by decide
  exact absurd (hnone.symm.trans hvalue) (Option.some_ne_none value).symm

/-! ## The text -/

/-- Texts that begin with a line are the same only if the lines and what follows them are. -/
theorem line_inj {front front' back back' : List Char} (h : '\n' ∉ front) (h' : '\n' ∉ front')
    (heq : front ++ '\n' :: back = front' ++ '\n' :: back') : front = front' ∧ back = back' := by
  have hsplit := congrArg (Rust.splitOnce '\n') heq
  rw [Rust.splitOnce_append h, Rust.splitOnce_append h'] at hsplit
  cases hsplit
  exact ⟨rfl, rfl⟩

/-- The signed text, line by line. -/
theorem toList_signingInput (envelope : SignedEnvelope) :
    (signingInput envelope).toList = "c6-runner-v1".toList ++ '\n' ::
      ((Rust.hyphenated envelope.requestId).toList ++ '\n' ::
        (envelope.issuedAtMs.repr.toList ++ '\n' ::
          (envelope.nonce.toList ++ '\n' :: envelope.payload.toList))) := by
  have hfirst : "c6-runner-v1\n".toList = "c6-runner-v1".toList ++ ['\n'] := by decide
  have hnewline : "\n".toList = ['\n'] := by decide
  show (_ ++ _ : String).toList = _
  simp only [String.toList_append, hfirst, hnewline, List.append_assoc, List.cons_append,
    List.nil_append]

/-- Checked envelopes with one signed text agree in every field but the code. -/
theorem signingInput_injective {a b : SignedEnvelope} (ha : a.Checked) (hb : b.Checked)
    (h : signingInput a = signingInput b) :
    a.version = b.version ∧ a.requestId = b.requestId ∧ a.issuedAtMs = b.issuedAtMs ∧
      a.nonce = b.nonce ∧ a.payload = b.payload := by
  obtain ⟨noncea, hnoncea, -⟩ := ha.nonce
  obtain ⟨nonceb, hnonceb, -⟩ := hb.nonce
  have htext := congrArg String.toList h
  rw [toList_signingInput, toList_signingInput] at htext
  obtain ⟨-, htext⟩ := line_inj (by decide) (by decide) htext
  obtain ⟨hid, htext⟩ := line_inj (newline_notMem_hyphenated _) (newline_notMem_hyphenated _) htext
  obtain ⟨htime, htext⟩ := line_inj (newline_notMem_repr _) (newline_notMem_repr _) htext
  obtain ⟨hnonce, hpayload⟩ := line_inj (newline_notMem_of_decode hnoncea)
    (newline_notMem_of_decode hnonceb) htext
  exact ⟨ha.version.trans hb.version.symm, hyphenated_injective (String.toList_inj.mp hid),
    repr_injective (String.toList_inj.mp htime), String.toList_inj.mp hnonce,
    String.toList_inj.mp hpayload⟩

/-- An envelope whose payload looks like the fields before it. -/
def nestedEnvelope (mac : String) : SignedEnvelope :=
  ⟨protocolVersion, 7#128, -5, "AAAAAAAAAAAAAAAAAAAAAA", "AAAAAAAAAAAAAAAAAAAAAA\n-5\n", mac⟩

theorem nestedEnvelope_checked (mac : String) : (nestedEnvelope mac).Checked := by
  have hnonce : Rust.Base64.urlSafeNoPad (Rust.bytes "AAAAAAAAAAAAAAAAAAAAAA") =
      some (List.replicate 16 0) := by decide +kernel
  exact ⟨rfl, _, hnonce, List.length_replicate⟩

/-- Two envelopes with different codes over one text. -/
theorem signingInput_injective_nested :
    (nestedEnvelope "AA").requestId = (nestedEnvelope "AQ").requestId ∧
      (nestedEnvelope "AA").payload = (nestedEnvelope "AQ").payload := by
  obtain ⟨-, hid, -, -, hpayload⟩ := signingInput_injective (nestedEnvelope_checked "AA")
    (nestedEnvelope_checked "AQ") rfl
  exact ⟨hid, hpayload⟩

end Cresix.Runner
