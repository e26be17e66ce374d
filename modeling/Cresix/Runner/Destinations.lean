import Cresix.Library.InetAton
import Cresix.Runner.Request

/-!
# Destinations and addresses

A destination may be an address, and then it must not be one of the host's own
networks.  The check knows an address by the four decimal numbers of Rust's
parser and takes every other text for a name.  The resolver reads more texts
as addresses, so the networks are closed in one spelling only
(`neverInternal_iff`).
-/

namespace Cresix.Runner

open InetAton (inetAton octets)

namespace NetworkDestination

/-- A destination that passes is not an address of the host's own networks, in
whatever spelling. -/
def NeverInternal (destination : NetworkDestination) : Prop :=
  destination.validate = .ok () →
    ∀ address, inetAton (Rust.bytes destination.host) = some address →
      isProtected (octets address) = false

/-- An address of these networks that is not written as four decimal numbers
without leading zeros, within the limits of a name. -/
structure Disguised (destination : NetworkDestination) : Prop where
  port : destination.port ≠ 0
  length : Rust.len destination.host ≤ 253
  lowercase : Rust.bytes destination.host = Rust.toAsciiLowercase (Rust.bytes destination.host)
  internal : ∃ address, inetAton (Rust.bytes destination.host) = some address ∧
    isProtected (octets address) = true
  spelling : parseIpAddr (Rust.bytes destination.host) = none

end NetworkDestination

/-! ## Four decimal numbers -/

section

variable {digits host : List UInt8} {n : Nat}

theorem splitDots_eq (host : List UInt8) : splitDots host = host.splitOn InetAton.dot := by
  induction host with
  | nil => rfl
  | cons byte host ih =>
      obtain ⟨group, groups, hsplit⟩ := List.exists_cons_of_ne_nil
        (List.splitOn_ne_nil InetAton.dot host)
      rw [List.splitOn_cons_eq_if_modifyHead, splitDots, ih, hsplit]
      by_cases hdot : byte = InetAton.dot
      · rw [if_pos hdot, if_pos (beq_iff_eq.mpr hdot)]
      · rw [if_neg hdot, if_neg (mt beq_iff_eq.mp hdot), List.modifyHead_cons]

theorem digit_of_isAsciiDigit {byte : UInt8} (h : Rust.isAsciiDigit byte = true) :
    InetAton.digit byte = some (byte.toNat - 0x30) ∧ byte.toNat - 0x30 < 10 := by
  have hrange : 0x30 ≤ byte ∧ byte ≤ 0x39 := by simpa [Rust.isAsciiDigit] using h
  have hle : byte.toNat ≤ 57 := UInt8.le_iff_toNat_le.mp hrange.2
  exact ⟨if_pos hrange, by omega⟩

/-- Decimal digits are read as Rust reads them. -/
theorem readDigits_of_all (h : digits.all Rust.isAsciiDigit = true) (start : Nat) :
    InetAton.readDigits 10 start digits =
      some (digits.foldl (fun n digit => n * 10 + (digit.toNat - 0x30)) start) := by
  induction digits generalizing start with
  | nil => rfl
  | cons byte digits ih =>
      rw [List.all_cons, Bool.and_eq_true] at h
      obtain ⟨hbyte, hdigits⟩ := h
      obtain ⟨hdigit, hlt⟩ := digit_of_isAsciiDigit hbyte
      rw [InetAton.readDigits, hdigit, Option.bind_eq_bind, Option.bind_some, if_pos hlt,
        ih hdigits, List.foldl_cons]

/-- A number without leading zeros is decimal. -/
theorem number_of_head (hne : digits ≠ [])
    (hzero : ¬ (1 < digits.length ∧ digits.head? = some 0x30)) :
    InetAton.number digits = InetAton.readDigits 10 0 digits := by
  have hten : InetAton.ofDigits 10 digits = InetAton.readDigits 10 0 digits := if_neg hne
  rw [← hten]
  rcases digits with _ | ⟨first, _ | ⟨second, digits⟩⟩
  · rfl
  · rfl
  · refine if_pos fun hfirst => hzero ⟨?_, congrArg some hfirst⟩
    simp

/-- A number without leading zeros is the same for both. -/
theorem number_of_parseOctet (h : parseOctet digits = some n) :
    InetAton.number digits = some n ∧ n < 256 := by
  rw [parseOctet] at h
  split at h
  next => cases h
  next hdigits =>
    split at h
    next => cases h
    next hzero =>
      dsimp only at h
      split at h
      next hle =>
        cases h
        obtain ⟨hne, hrest⟩ := not_or.mp hdigits
        have hall : digits.all Rust.isAsciiDigit = true := by simpa using (not_or.mp hrest).2
        refine ⟨?_, by omega⟩
        rw [number_of_head (by simpa using hne) hzero]
        exact readDigits_of_all hall 0
      next => cases h

/-- What Rust's parser reads as an address is that address to the resolver. -/
theorem inetAton_of_parseIpAddr {octets' : Nat × Nat × Nat × Nat}
    (h : parseIpAddr host = some octets') :
    ∃ address, inetAton host = some address ∧ octets address = octets' := by
  rw [parseIpAddr, splitDots_eq] at h
  split at h
  next a b c d hsplit =>
    obtain ⟨na, ha, h⟩ := Option.bind_eq_some_iff.mp h
    obtain ⟨nb, hb, h⟩ := Option.bind_eq_some_iff.mp h
    obtain ⟨nc, hc, h⟩ := Option.bind_eq_some_iff.mp h
    obtain ⟨nd, hd, h⟩ := Option.bind_eq_some_iff.mp h
    cases h
    obtain ⟨ha, hlta⟩ := number_of_parseOctet ha
    obtain ⟨hb, hltb⟩ := number_of_parseOctet hb
    obtain ⟨hc, hltc⟩ := number_of_parseOctet hc
    obtain ⟨hd, hltd⟩ := number_of_parseOctet hd
    obtain ⟨address, hcombine, hoctets⟩ := InetAton.octets_of_combine hlta hltb hltc hltd
    refine ⟨address, ?_, hoctets⟩
    simp only [inetAton, hsplit, List.mapM_cons, List.mapM_nil, ha, hb, hc, hd,
      Option.bind_eq_bind, Option.bind_some, Option.pure_def, hcombine]
  next => cases h

/-! ## Names that are addresses -/

theorem not_isAsciiUppercase (h : host = Rust.toAsciiLowercase host) :
    ∀ byte ∈ host, Rust.isAsciiUppercase byte = false := by
  intro byte hmem
  have hmap : host.map id = Rust.toAsciiLowercase host := (List.map_id host).trans h
  have hbyte := List.map_inj_left.mp hmap byte hmem
  cases hupper : Rust.isAsciiUppercase byte with
  | false => rfl
  | true =>
      rw [hupper, if_pos rfl, id_eq] at hbyte
      have hnat := congrArg UInt8.toNat hbyte
      rw [UInt8.toNat_add, show (0x20 : UInt8).toNat = 32 from rfl] at hnat
      have hlt := byte.toNat_lt
      omega

/-- A byte of an address in small letters is a byte of a name. -/
theorem isHostByte_of_inetAton {address : Nat} (h : inetAton host = some address)
    (hlower : host = Rust.toAsciiLowercase host) : ∀ byte ∈ host, isHostByte byte = true := by
  intro byte hmem
  have hupper := not_isAsciiUppercase hlower byte hmem
  rcases InetAton.byte_of_inetAton h byte hmem with rfl | hdigit | rfl | rfl
  · rfl
  · rw [InetAton.digit] at hdigit
    split at hdigit
    next hrange => simp [isHostByte, Rust.isAsciiDigit, hrange]
    next =>
      split at hdigit
      next hrange =>
        have hle : byte ≤ 0x7a := UInt8.le_trans hrange.2 (show (0x66 : UInt8) ≤ 0x7a by decide)
        simp [isHostByte, Rust.isAsciiLowercase, hrange.1, hle]
      next =>
        split at hdigit
        next hrange =>
          have hle : byte ≤ 0x5a := UInt8.le_trans hrange.2 (show (0x46 : UInt8) ≤ 0x5a by decide)
          simp [Rust.isAsciiUppercase, hrange.1, hle] at hupper
        next => cases hdigit
  · rfl
  · exact absurd hupper (by decide)

/-- The addresses among the names that are refused are written as Rust writes them. -/
theorem parseIpAddr_of_blocked :
    ∀ host ∈ blockedHosts, inetAton (Rust.bytes host) = none ∨
      parseIpAddr (Rust.bytes host) ≠ none := by
  decide +kernel

end

namespace NetworkDestination

variable {destination : NetworkDestination}

/-- An address in another spelling passes as a name. -/
theorem Disguised.validate_eq_ok (h : destination.Disguised) : destination.validate = .ok () := by
  obtain ⟨address, haddress, -⟩ := h.internal
  have hpieces := InetAton.nil_notMem_splitOn haddress
  have hbytes := isHostByte_of_inetAton haddress h.lowercase
  have hempty : ¬ destination.host.isEmpty = true := by
    intro hempty
    rw [String.isEmpty_iff.mp hempty] at hpieces
    exact hpieces List.mem_cons_self
  have hstart : ¬ Rust.startsWith destination.host "." = true := fun hprefix =>
    Search.not_prefix_of_splitOn hpieces (List.isPrefixOf_iff_prefix.mp hprefix)
  have hend : ¬ Rust.endsWith destination.host "." = true := fun hsuffix =>
    Search.not_suffix_of_splitOn hpieces (List.isSuffixOf_iff_suffix.mp hsuffix)
  have hdots : ¬ Rust.contains destination.host ".." = true := fun hinfix =>
    Search.not_infix_of_splitOn hpieces (of_decide_eq_true hinfix)
  have hstar : ¬ Rust.contains destination.host "*" = true := by
    intro hinfix
    have hmem : (0x2a : UInt8) ∈ Rust.bytes destination.host :=
      (of_decide_eq_true hinfix).subset (List.mem_singleton_self _)
    exact absurd (hbytes _ hmem) (by decide)
  have hall : ¬ (!(Rust.bytes destination.host).all isHostByte) = true := by
    simpa using hbytes
  have hname : destination.host ∉ blockedHosts := by
    intro hmem
    rcases parseIpAddr_of_blocked _ hmem with hnone | hparse
    · exact Option.some_ne_none address (haddress.symm.trans hnone)
    · exact hparse h.spelling
  have hshape : ¬ (destination.port = 0 ∨ destination.host.isEmpty = true ∨
      253 < Rust.len destination.host ∨
      Rust.bytes destination.host ≠ Rust.toAsciiLowercase (Rust.bytes destination.host) ∨
      Rust.startsWith destination.host "." = true ∨ Rust.endsWith destination.host "." = true ∨
      Rust.contains destination.host ".." = true ∨ Rust.contains destination.host "*" = true ∨
      (!(Rust.bytes destination.host).all isHostByte) = true) := by
    simp only [not_or]
    exact ⟨h.port, hempty, not_lt.mpr h.length, not_not.mpr h.lowercase, hstart, hend, hdots,
      hstar, hall⟩
  rw [validate, if_neg hshape, if_neg hname, h.spelling]

theorem of_validate (h : destination.validate = .ok ()) :
    destination.port ≠ 0 ∧ Rust.len destination.host ≤ 253 ∧
      Rust.bytes destination.host = Rust.toAsciiLowercase (Rust.bytes destination.host) ∧
      ∀ octets', parseIpAddr (Rust.bytes destination.host) = some octets' →
        isProtected octets' = false := by
  rw [validate] at h
  split at h
  next => cases h
  next hshape =>
    simp only [not_or] at hshape
    split at h
    next => cases h
    next =>
      refine ⟨hshape.1, not_lt.mp hshape.2.2.1, not_not.mp hshape.2.2.2.1, ?_⟩
      intro octets' hparse
      rw [hparse] at h
      dsimp only at h
      split at h
      next => cases h
      next hsafe => exact eq_false_of_ne_true hsafe

/-- The networks are closed to a destination unless it is an address of theirs
in another spelling than four decimal numbers without leading zeros. -/
theorem neverInternal_iff (destination : NetworkDestination) :
    destination.NeverInternal ↔ ¬ destination.Disguised := by
  constructor
  · intro hnever hdisguised
    obtain ⟨address, haddress, hprotected⟩ := hdisguised.internal
    have hsafe := hnever hdisguised.validate_eq_ok address haddress
    rw [hprotected] at hsafe
    cases hsafe
  · intro hplain hvalid address haddress
    obtain ⟨hport, hlength, hlower, hparsed⟩ := of_validate hvalid
    by_contra hprotected
    have hprotected := eq_true_of_ne_false hprotected
    cases hparse : parseIpAddr (Rust.bytes destination.host) with
    | none => exact hplain ⟨hport, hlength, hlower, ⟨address, haddress, hprotected⟩, hparse⟩
    | some octets' =>
        obtain ⟨address', haddress', rfl⟩ := inetAton_of_parseIpAddr hparse
        obtain rfl := Option.some.inj (haddress'.symm.trans haddress)
        rw [hparsed _ hparse] at hprotected
        cases hprotected

/-- The host itself, as `127.1`. -/
theorem loopback_disguised : ¬ (NetworkDestination.mk "127.1" 443).NeverInternal := by
  intro hnever
  have hsafe := hnever (by decide +kernel) 2130706433 (by decide +kernel)
  exact absurd hsafe (by decide)

end NetworkDestination

end Cresix.Runner
