import Cresix.Server.Confinement

/-!
# Opaque tokens

A token of the server is a class, a public identifier of twelve bytes and a
secret of thirty-two, both in base64url.  The underscore between them is a
character of base64url as well, so the parser counts characters.  It cuts the
text with two slices, beside the underscore that it has found, and a slice is
never taken inside of a character (`sliceOpaqueToken_eq`).  What it accepts are
the texts that are written so (`parseOpaqueToken_eq_ok_iff`), and a text is
written so in one way (`opaqueToken_inj`).
-/

namespace Cresix.Server

open Concurrent (Program)
open Transition (System)

/-- The `prefix` of `parse_opaque_token`. -/
def CredentialType.prefixText (credentialType : CredentialType) : String :=
  s!"{credentialType.tokenPrefix}_"

theorem CredentialType.length_prefixText (credentialType : CredentialType) :
    (Rust.bytes credentialType.prefixText).length = 7 := by
  cases credentialType with
  | cli => decide
  | git => decide

theorem CredentialType.prefixText_injective {a b : CredentialType}
    (h : a.prefixText = b.prefixText) : a = b := by
  revert h
  cases a with
  | cli => cases b <;> decide
  | git => cases b <;> decide

/-- `parse_opaque_token` with the slices it takes; `none` is the panic of a slice. -/
def sliceOpaqueToken (token : String) (expected : CredentialType) :
    Option (Outcome (List UInt8)) :=
  if 256 < Rust.len token
      || (Rust.bytes token).any fun b =>
        b == 0x20 || b == 0x09 || b == 0x0a || b == 0x0c || b == 0x0d then
    some (.error .unauthenticated)
  else
    match Rust.stripPrefix token expected.prefixText with
    | none => some (.error .unauthenticated)
    | some rest =>
        if Rust.len rest ≠ 60 || (Rust.bytes rest)[16]? ≠ some 0x5f then
          some (.error .unauthenticated)
        else do
          let publicId ← Rust.sliceTo (Rust.bytes rest) 16
          let secret ← Rust.sliceFrom (Rust.bytes rest) 17
          if publicId.length ≠ 16 || secret.length ≠ 43
              || (Rust.Base64.urlSafeNoPad publicId).all (·.length ≠ 12)
              || (Rust.Base64.urlSafeNoPad secret).all (·.length ≠ 32) then
            some (.error .unauthenticated)
          else some (.ok publicId)

/-- The token of a public identifier and a secret. -/
def opaqueToken (credentialType : CredentialType) (publicId secret : List UInt8) : String :=
  s!"{credentialType.tokenPrefix}_{Rust.Base64.encode publicId}_{Rust.Base64.encode secret}"

/-- The text is a token of the class with the public identifier. -/
def IsOpaqueToken (token : String) (credentialType : CredentialType) (publicId : String) : Prop :=
  ∃ (id : Vector UInt8 12) (secret : Vector UInt8 32),
    token = opaqueToken credentialType id.toList secret.toList ∧
      publicId = Rust.Base64.encode id.toList

/-- What `random_public_id` and `random_token` draw for a credential. -/
structure Draws (i : Input) : Prop where
  publicId : ∃ id : Vector UInt8 12, i.random 1 = Rust.Base64.encode id.toList
  secret : ∃ secret : Vector UInt8 32, i.random 2 = Rust.Base64.encode secret.toList

/-! ## What is accepted -/

section

variable {token rest publicId : String} {expected expected' : CredentialType}
  {id secret id' secret' : List UInt8}

theorem opaqueToken_eq (expected : CredentialType) (id secret : List UInt8) :
    opaqueToken expected id secret = expected.prefixText ++
      (Rust.Base64.encode id ++ ("_" ++ Rust.Base64.encode secret)) := by
  simp only [opaqueToken, CredentialType.prefixText, toString, String.append_assoc]

theorem bytes_opaqueToken (expected : CredentialType) (id secret : List UInt8) :
    Rust.bytes (opaqueToken expected id secret) = Rust.bytes expected.prefixText ++
      (Rust.bytes (Rust.Base64.encode id) ++ 0x5f :: Rust.bytes (Rust.Base64.encode secret)) := by
  have hsep : Rust.bytes "_" = [0x5f] := by decide
  rw [opaqueToken_eq, Rust.bytes_append, Rust.bytes_append, Rust.bytes_append, hsep]
  rfl

theorem len_rest (hid : id.length = 12) (hsecret : secret.length = 32) :
    Rust.len (Rust.Base64.encode id ++ ("_" ++ Rust.Base64.encode secret)) = 60 := by
  have hsep : (Rust.bytes "_").length = 1 := by decide
  rw [← Rust.length_bytes, Rust.bytes_append, Rust.bytes_append, List.length_append,
    List.length_append, hsep, Rust.length_bytes, Rust.length_bytes, Rust.Base64.len_encode,
    Rust.Base64.len_encode, hid, hsecret]

theorem len_opaqueToken (hid : id.length = 12) (hsecret : secret.length = 32) :
    Rust.len (opaqueToken expected id secret) = 67 := by
  rw [opaqueToken_eq, ← Rust.length_bytes, Rust.bytes_append, List.length_append,
    expected.length_prefixText, Rust.length_bytes, len_rest hid hsecret]

/-- No byte of a token is a blank. -/
theorem lt_of_mem_opaqueToken {byte : UInt8}
    (h : byte ∈ Rust.bytes (opaqueToken expected id secret)) : 0x20 < byte := by
  have hclass : ((Rust.bytes expected.prefixText).all fun byte => decide (0x20 < byte)) = true := by
    cases expected with
    | cli => decide
    | git => decide
  rw [bytes_opaqueToken, List.mem_append, List.mem_append, List.mem_cons] at h
  rcases h with h | h | rfl | h
  · exact of_decide_eq_true (List.all_eq_true.mp hclass byte h)
  · exact (Rust.Base64.mem_bytes_encode h).1
  · decide
  · exact (Rust.Base64.mem_bytes_encode h).1

/-- There is one way to take a token apart. -/
theorem opaqueToken_inj (hid : id.length = 12) (hid' : id'.length = 12)
    (h : opaqueToken expected id secret = opaqueToken expected' id' secret') :
    expected = expected' ∧ id = id' ∧ secret = secret' := by
  have hlen : ∀ b : List UInt8, b.length = 12 →
      (Rust.bytes (Rust.Base64.encode b)).length = 16 := by
    intro b hb
    rw [Rust.length_bytes, Rust.Base64.len_encode, hb]
  have hbytes := congrArg Rust.bytes h
  rw [bytes_opaqueToken, bytes_opaqueToken] at hbytes
  obtain ⟨hclass, hrest⟩ := List.append_inj hbytes
    (expected.length_prefixText.trans expected'.length_prefixText.symm)
  obtain ⟨hpublic, hsecret⟩ := List.append_inj hrest ((hlen id hid).trans (hlen id' hid').symm)
  exact ⟨CredentialType.prefixText_injective (Rust.bytes_injective hclass),
    Rust.Base64.encode_injective (Rust.bytes_injective hpublic),
    Rust.Base64.encode_injective (Rust.bytes_injective (List.cons.inj hsecret).2)⟩

theorem IsOpaqueToken.unique {publicId' : String} (h : IsOpaqueToken token expected publicId)
    (h' : IsOpaqueToken token expected' publicId') :
    expected = expected' ∧ publicId = publicId' := by
  obtain ⟨id, secret, rfl, rfl⟩ := h
  obtain ⟨id', secret', heq, rfl⟩ := h'
  obtain ⟨rfl, hid, -⟩ := opaqueToken_inj id.length_toList id'.length_toList heq
  rw [hid]
  exact ⟨rfl, rfl⟩

theorem IsOpaqueToken.length_publicId (h : IsOpaqueToken token expected publicId) :
    publicId.toList.length = 16 := by
  obtain ⟨id, secret, -, rfl⟩ := h
  rw [Rust.Base64.length_toList_encode, id.length_toList]

/-- The bytes behind the prefix. -/
theorem bytes_rest (hid : id.length = 12) :
    (Rust.bytes (Rust.Base64.encode id ++ ("_" ++ Rust.Base64.encode secret))).take 16 =
        Rust.bytes (Rust.Base64.encode id) ∧
      (Rust.bytes (Rust.Base64.encode id ++ ("_" ++ Rust.Base64.encode secret)))[16]? =
        some 0x5f ∧
      (Rust.bytes (Rust.Base64.encode id ++ ("_" ++ Rust.Base64.encode secret))).drop 17 =
        Rust.bytes (Rust.Base64.encode secret) := by
  have hsep : Rust.bytes "_" = [0x5f] := by decide
  have hlen : (Rust.bytes (Rust.Base64.encode id)).length = 16 := by
    rw [Rust.length_bytes, Rust.Base64.len_encode, hid]
  rw [Rust.bytes_append, Rust.bytes_append, hsep, List.singleton_append]
  refine ⟨?_, ?_, ?_⟩
  · rw [← hlen, List.take_left]
  · rw [← hlen, List.getElem?_append_right (Nat.le_refl _), Nat.sub_self]
    rfl
  · rw [List.drop_append, hlen, List.drop_eq_nil_of_le (by omega)]
    rfl

theorem truncate_rest (hid : id.length = 12) :
    Rust.truncate (Rust.Base64.encode id ++ ("_" ++ Rust.Base64.encode secret)) 16 =
      Rust.Base64.encode id := by
  have hlen : Rust.len (Rust.Base64.encode id) = 16 := by
    rw [Rust.Base64.len_encode, hid]
  rw [← hlen, Rust.truncate_append]

/-- What is accepted is written as a token of the class. -/
theorem IsOpaqueToken.of_parse (h : parseOpaqueToken token expected = .ok publicId) :
    IsOpaqueToken token expected publicId := by
  obtain ⟨_, -, h⟩ := bind_eq_ok.mp h
  obtain ⟨rest, hrest, h⟩ := bind_eq_ok.mp h
  obtain ⟨_, hsep, h⟩ := bind_eq_ok.mp h
  obtain ⟨_, hparts, h⟩ := bind_eq_ok.mp h
  cases h
  have htoken := Rust.stripPrefix_eq_some_iff.mp (orElse_eq_ok.mp hrest)
  have hsep := of_decide_eq_true (Bool.and_eq_true_iff.mp (require_eq_ok.mp hsep)).2
  obtain ⟨hparts, hsecret⟩ := Bool.and_eq_true_iff.mp (require_eq_ok.mp hparts)
  obtain ⟨-, hid⟩ := Bool.and_eq_true_iff.mp hparts
  obtain ⟨id, hid, hidLength⟩ := (Option.any_eq_true _ _).mp hid
  obtain ⟨secret, hsecret, hsecretLength⟩ := (Option.any_eq_true _ _).mp hsecret
  have hidLength : id.length = 12 := of_decide_eq_true hidLength
  have hsecretLength : secret.length = 32 := of_decide_eq_true hsecretLength
  have hrest : rest = Rust.Base64.encode id ++ ("_" ++ Rust.Base64.encode secret) := by
    apply Rust.bytes_injective
    rw [Rust.eq_take_cons_drop hsep, Rust.Base64.urlSafeNoPad_eq_some_iff.mp hid,
      Rust.Base64.urlSafeNoPad_eq_some_iff.mp hsecret, Rust.bytes_append, Rust.bytes_append]
    rfl
  refine ⟨⟨id.toArray, hidLength⟩, ⟨secret.toArray, hsecretLength⟩, ?_, ?_⟩
  · rw [htoken, hrest]
    exact (opaqueToken_eq expected id secret).symm
  · rw [hrest]
    exact truncate_rest hidLength

/-- A token of the class is accepted, since its parts have the lengths that are counted. -/
theorem IsOpaqueToken.parse (h : IsOpaqueToken token expected publicId) :
    parseOpaqueToken token expected = .ok publicId := by
  obtain ⟨id, secret, rfl, rfl⟩ := h
  obtain ⟨hto, hsep, hfrom⟩ := @bytes_rest id.toList secret.toList id.length_toList
  have hpublic := @truncate_rest id.toList secret.toList id.length_toList
  have htoken := opaqueToken_eq expected id.toList secret.toList
  have hrestLen := len_rest id.length_toList secret.length_toList
  generalize Rust.Base64.encode id.toList ++ ("_" ++ Rust.Base64.encode secret.toList) = rest
    at hto hsep hfrom hpublic htoken hrestLen
  have hlen := @len_opaqueToken expected _ _ id.length_toList secret.length_toList
  have hidLen : Rust.len (Rust.Base64.encode id.toList) = 16 := by
    rw [Rust.Base64.len_encode, id.length_toList]
  have hsecretLen : (Rust.bytes rest).length - 17 = 43 := by
    rw [Rust.length_bytes, hrestLen]
  apply bind_eq_ok.mpr ⟨(), require_eq_ok.mpr ?_, ?_⟩
  · rw [hlen]
    simp only [Bool.not_eq_true', Bool.or_eq_false_iff, List.any_eq_false]
    refine ⟨by decide, fun byte hbyte => ?_⟩
    have hlt := lt_of_mem_opaqueToken hbyte
    simp only [Bool.or_eq_true, beq_iff_eq]
    rintro ((((rfl | rfl) | rfl) | rfl) | rfl)
    all_goals exact absurd hlt (by decide)
  apply bind_eq_ok.mpr
    ⟨rest, orElse_eq_ok.mpr (Rust.stripPrefix_eq_some_iff.mpr htoken), ?_⟩
  apply bind_eq_ok.mpr ⟨(), require_eq_ok.mpr ?_, ?_⟩
  · rw [hrestLen, hsep]
    rfl
  apply bind_eq_ok.mpr ⟨(), require_eq_ok.mpr ?_, ?_⟩
  · rw [hpublic, hidLen, hsecretLen, hto, hfrom, Rust.Base64.urlSafeNoPad_encode,
      Rust.Base64.urlSafeNoPad_encode]
    simp
  · rw [hpublic]
    rfl

/-- What is accepted are the tokens of the class. -/
theorem parseOpaqueToken_eq_ok_iff :
    parseOpaqueToken token expected = .ok publicId ↔ IsOpaqueToken token expected publicId :=
  ⟨.of_parse, fun h => h.parse⟩

theorem parseOpaqueToken_eq_error {error : ApiError}
    (h : parseOpaqueToken token expected = .error error) : error = .unauthenticated := by
  rcases bind_eq_error h with h | ⟨_, -, h⟩
  · exact require_eq_error h
  rcases bind_eq_error h with h | ⟨rest, -, h⟩
  · exact orElse_eq_error h
  rcases bind_eq_error h with h | ⟨_, -, h⟩
  · exact require_eq_error h
  rcases bind_eq_error h with h | ⟨_, -, h⟩
  · exact require_eq_error h
  · cases h

/-- Both slices are taken beside the underscore. -/
theorem slices (hsep : (Rust.bytes rest)[16]? = some 0x5f) :
    Rust.sliceTo (Rust.bytes rest) 16 = some (Rust.bytes (Rust.truncate rest 16)) ∧
      Rust.sliceFrom (Rust.bytes rest) 17 = some ((Rust.bytes rest).drop 17) ∧
      Rust.bytes (Rust.truncate rest 16) = (Rust.bytes rest).take 16 := by
  have hto : Rust.isCharBoundary (Rust.bytes rest) 16 = true := by
    rw [Rust.isCharBoundary, hsep]
    rfl
  obtain ⟨hsliceTo, hsliceFrom⟩ :=
    Rust.slices_of_ascii (List.nil_append (Rust.bytes rest)).symm hsep (by decide)
  rw [Rust.bytes_truncate hto]
  exact ⟨hsliceTo, hsliceFrom, rfl⟩

theorem all_ne_eq_not_any {n : Nat} (decoded : Option (List UInt8)) :
    decoded.all (fun bytes => !decide (bytes.length = n)) = !decoded.any (·.length = n) := by
  cases decoded with
  | none => rfl
  | some bytes => rfl

theorem map_require (condition : Bool) (error : ApiError) (next : Outcome String) :
    some (Except.map Rust.bytes (require condition error >>= fun _ => next)) =
      if !condition then some (.error error) else some (next.map Rust.bytes) := by
  cases condition with
  | true => rfl
  | false => rfl

/-- The slices never panic, and give what is parsed. -/
theorem sliceOpaqueToken_eq (token : String) (expected : CredentialType) :
    sliceOpaqueToken token expected = some ((parseOpaqueToken token expected).map Rust.bytes) := by
  unfold sliceOpaqueToken parseOpaqueToken
  show _ = some (Except.map Rust.bytes (require _ _ >>= fun _ => _))
  rw [map_require, Bool.not_not]
  split
  next => rfl
  next =>
    show _ = some (Except.map Rust.bytes
      (orElse (Rust.stripPrefix token expected.prefixText) _ >>= _))
    split
    next hstrip =>
      rw [hstrip]
      rfl
    next rest hstrip =>
      rw [hstrip]
      show _ = some (Except.map Rust.bytes (require (_ && _) _ >>= fun _ => _))
      rw [map_require, Bool.not_and, ← decide_not, ← decide_not]
      split
      next => rfl
      next hrest =>
        have hsep : (Rust.bytes rest)[16]? = some 0x5f := by
          by_contra hne
          exact hrest (by rw [decide_eq_true hne, Bool.or_true])
        obtain ⟨hto, hfrom, htruncate⟩ := slices hsep
        rw [hto, hfrom]
        show _ = some (Except.map Rust.bytes (require _ _ >>= fun _ => _))
        rw [map_require, ← htruncate, ← Rust.length_bytes]
        simp only [Option.bind_eq_bind, Option.bind_some, List.length_drop, Bool.not_and,
          decide_not, ne_eq, all_ne_eq_not_any]
        rfl

end

/-! ## What is minted and let through -/

section

variable {config : Config} {s t : Store} {inputs left : Nat → Input}

/-- The transaction stores the hash of the token that it answers with. -/
theorem createCredentialTx_mints {input : CreateCredentialRequest} {p : Principal}
    {created expires : Instant} {restriction : Option String × Option String} {i : Input}
    {now : Readings} {db db' : Database} {reply : Reply} (hdraws : Draws i)
    (h : createCredentialTx config input p created expires restriction i now db =
      .ok (reply, db')) :
    ∃ row token, reply = .credential row token ∧ row ∈ db'.credentials ∧
      row.credentialType = input.credentialType ∧ row.verifier = config.hash token ∧
      parseOpaqueToken token input.credentialType = .ok row.publicId := by
  obtain ⟨db'', hinsert, heq⟩ := bind_eq_ok.mp h
  obtain ⟨-, rfl⟩ := Database.insertCredential_eq_ok (orInternal_eq_ok.mp hinsert)
  cases heq
  obtain ⟨id, hid⟩ := hdraws.publicId
  obtain ⟨secret, hsecret⟩ := hdraws.secret
  refine ⟨_, _, rfl, List.mem_append_right _ (List.mem_singleton_self _), rfl, rfl, ?_⟩
  refine parseOpaqueToken_eq_ok_iff.mpr ⟨id, secret, ?_, hid⟩
  rw [opaqueToken, ← hid, ← hsecret]

theorem draws_left {α ε : Type} {q : Program Store Input ε α} {outcome : Except ε α}
    (hdraws : ∀ n, Draws (inputs n)) (h : q.run inputs s = (outcome, t, left)) :
    ∀ n, Draws (left n) := by
  intro n
  have hleft := @Program.run_inputs _ _ _ _ inputs s _ q hdraws n
  rwa [h] at hleft

theorem createCredential_mints {headers : Headers} {input : CreateCredentialRequest}
    {reply : Reply} (hdraws : ∀ n, Draws (inputs n))
    (h : (createCredential config headers input).run inputs s = (.ok reply, t, left)) :
    ∃ row token, reply = .credential row token ∧ row ∈ t.db.credentials ∧
      row.credentialType = input.credentialType ∧ row.verifier = config.hash token ∧
      parseOpaqueToken token input.credentialType = .ok row.publicId := by
  obtain ⟨p, s₁, inputs₁, hauth, h⟩ := Program.run_bind_eq_ok.mp h
  obtain ⟨_, _, h⟩ := Program.run_check_bind_eq_ok.mp h
  obtain ⟨_, _, h⟩ := Program.run_check_bind_eq_ok.mp h
  obtain ⟨created, s₂, inputs₂, hcreated, h⟩ := Program.run_bind_eq_ok.mp h
  obtain ⟨_, _, h⟩ := Program.run_check_bind_eq_ok.mp h
  obtain ⟨restriction, s₃, inputs₃, hrestriction, h⟩ := Program.run_bind_eq_ok.mp h
  have hdraws₁ := draws_left hdraws hauth
  have hdraws₂ := draws_left hdraws₁ hcreated
  have hdraws₃ := draws_left hdraws₂ hrestriction
  obtain ⟨db, hwork, rfl, -⟩ := run_underLock h
  exact createCredentialTx_mints (hdraws₃ 0) hwork

/-- Who is let through presents the string whose hash the row of its public identifier holds. -/
theorem authenticateOpaqueToken_verifier {x : Process} (hx : (system config).Reachable x)
    {token : String} {expected : CredentialType} {scope : CredentialScope} {p : TokenPrincipal}
    (h : (authenticateOpaqueToken config token expected scope).run inputs x.pool.state =
      (.ok p, t, left)) :
    ∃ row ∈ x.db.credentials, parseOpaqueToken token expected = .ok row.publicId ∧
      row.credentialType = expected ∧ row.verifier = config.hash token ∧
      ∀ other ∈ x.db.credentials, other.publicId = row.publicId → other = row := by
  obtain ⟨publicId, row, user, hparse, howner, hverifier, -, -⟩ := authenticateOpaqueToken_run h
  obtain ⟨hrow, hpublic, htype, -⟩ := Database.tokenOwner_eq_some howner
  refine ⟨row, hrow, hpublic ▸ hparse, htype, secureEq_iff.mp hverifier, ?_⟩
  intro other hother hsame
  exact (wellFormed_of_reachable hx).credentials other hother row hrow hsame

end

/-- The parser rejects a text or gives its one public identifier of sixteen characters, and no
slice panics.  What is minted is accepted and stored under its hash.  No text is accepted under
both classes.  Who is let through presents the text whose hash is stored, and the folded
comparison is equality. -/
theorem opaque_tokens (config : Config) :
    (∀ token expected,
      sliceOpaqueToken token expected = some ((parseOpaqueToken token expected).map Rust.bytes) ∧
      (parseOpaqueToken token expected = .error .unauthenticated ∨
        ∃ publicId, parseOpaqueToken token expected = .ok publicId ∧
          publicId.toList.length = 16 ∧ IsOpaqueToken token expected publicId ∧
          ∀ other, IsOpaqueToken token expected other → other = publicId)) ∧
    (∀ headers input inputs s reply t left, (∀ n, Draws (inputs n)) →
      (createCredential config headers input).run inputs s = (.ok reply, t, left) →
      ∃ row token, reply = .credential row token ∧ row ∈ t.db.credentials ∧
        row.credentialType = input.credentialType ∧ row.verifier = config.hash token ∧
        parseOpaqueToken token input.credentialType = .ok row.publicId) ∧
    (∀ token publicId publicId', parseOpaqueToken token .cli = .ok publicId →
      parseOpaqueToken token .git ≠ .ok publicId') ∧
    (∀ x, (system config).Reachable x → ∀ token expected scope inputs p t left,
      (authenticateOpaqueToken config token expected scope).run inputs x.pool.state =
        (.ok p, t, left) →
      ∃ row ∈ x.db.credentials, parseOpaqueToken token expected = .ok row.publicId ∧
        row.credentialType = expected ∧ row.verifier = config.hash token ∧
        ∀ other ∈ x.db.credentials, other.publicId = row.publicId → other = row) ∧
    ∀ a b, secureEq a b = true ↔ a = b := by
  refine ⟨?_, ?_, ?_, ?_, fun _ _ => secureEq_iff⟩
  · intro token expected
    refine ⟨sliceOpaqueToken_eq token expected, ?_⟩
    cases hparse : parseOpaqueToken token expected with
    | error error => exact .inl (congrArg _ (parseOpaqueToken_eq_error hparse))
    | ok publicId =>
        have htoken := parseOpaqueToken_eq_ok_iff.mp hparse
        exact .inr ⟨publicId, rfl, htoken.length_publicId, htoken,
          fun other hother => (hother.unique htoken).2⟩
  · intro headers input inputs s reply t left hdraws h
    exact createCredential_mints hdraws h
  · intro token publicId publicId' hcli hgit
    have hclass := ((parseOpaqueToken_eq_ok_iff.mp hcli).unique
      (parseOpaqueToken_eq_ok_iff.mp hgit)).1
    cases hclass
  · intro x hx token expected scope inputs p t left h
    exact authenticateOpaqueToken_verifier hx h

/-- Draws of zeros. -/
def zeroDraws : Input :=
  sampleInput ["credential-1", "AAAAAAAAAAAAAAAA", "AAAAAAAAAAAAAAAAAAAAAAAAAAAAAAAAAAAAAAAAAAA"]

/-- The administrator makes a token of zeros. -/
theorem opaque_tokens_zeros :
    ∃ s reply t left row token,
      (createCredential tokenConfig sampleHeaders ⟨.cli, "laptop", none, [.apiRead], none⟩).run
        (fun _ => zeroDraws) s = (.ok reply, t, left) ∧
      reply = .credential row token ∧ row ∈ t.db.credentials ∧
      row.verifier = tokenConfig.hash token ∧ parseOpaqueToken token .cli = .ok row.publicId := by
  have hdata : (stateAfter tokenConfig sampleClaim).map (fun x =>
      ((createCredential tokenConfig sampleHeaders ⟨.cli, "laptop", none, [.apiRead], none⟩).run
        (fun _ => zeroDraws) x.pool.state).1.toOption.isSome) = some true := by
    decide +kernel
  have hid : Rust.Base64.encode (List.replicate 12 0) = "AAAAAAAAAAAAAAAA" := by decide +kernel
  have hsecret : Rust.Base64.encode (List.replicate 32 0) =
      "AAAAAAAAAAAAAAAAAAAAAAAAAAAAAAAAAAAAAAAAAAA" := by decide +kernel
  have hdraws : Draws zeroDraws :=
    ⟨⟨⟨(List.replicate 12 0).toArray, rfl⟩, hid.symm⟩,
      ⟨⟨(List.replicate 32 0).toArray, rfl⟩, hsecret.symm⟩⟩
  obtain ⟨x, -, hsome⟩ := Option.map_eq_some_iff.mp hdata
  obtain ⟨reply, hreply⟩ := Option.isSome_iff_exists.mp hsome
  obtain ⟨t, left, hrun⟩ := Program.run_of_toOption hreply
  obtain ⟨row, token, hcredential, hrow, -, hverifier, hparse⟩ :=
    (opaque_tokens tokenConfig).2.1 _ _ _ _ _ _ _ (fun _ => hdraws) hrun
  exact ⟨x.pool.state, reply, t, left, row, token, hrun, hcredential, hrow, hverifier, hparse⟩

/-- A public identifier may be nothing but underscores. -/
example : parseOpaqueToken
    (opaqueToken .git (List.replicate 12 0xff) (List.replicate 32 0)) .git =
    .ok "________________" := by decide +kernel

end Cresix.Server
