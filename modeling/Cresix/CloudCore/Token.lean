import Cresix.Rust.Base64

/-!
# Cloud credentials

The token grammar of `c6-cloud-core`: a class, a public identifier of fixed
width and a secret.  `ParsedToken.parse` gives `none` where the Rust code
would panic on a slice.  A `SecretToken` carries the proof that it parses.
-/

namespace Cresix.CloudCore

/-- The authentication surfaces. -/
inductive TokenClass where
  | bootstrap
  | cloudSession
  | csrf
  | connector
deriving DecidableEq, Repr

namespace TokenClass

/-- Every class, in the order the parser tries them. -/
def all : List TokenClass := [.bootstrap, .cloudSession, .csrf, .connector]

/-- What a token of the class begins with. -/
def prefixText : TokenClass → String
  | .bootstrap => "c6b_v1"
  | .cloudSession => "c6s_v1"
  | .csrf => "c6f_v1"
  | .connector => "c6x_v1"

end TokenClass

/-- Why a token is refused. -/
inductive TokenParseError where
  | unknownClass
  | malformed
deriving DecidableEq, Repr

/-- A token taken apart. -/
structure ParsedToken where
  /-- The surface the token is for. -/
  tokenClass : TokenClass
  /-- The bytes the row is looked up by. -/
  publicId : List UInt8
  /-- The bytes that prove possession. -/
  secret : List UInt8
deriving DecidableEq, Repr

/-- The longest token, in bytes. -/
def SecretToken.maxLen : Nat := 256

/-- The base64url alphabet, without padding. -/
def isBase64url (value : List UInt8) : Bool :=
  value.all fun byte => Rust.isAsciiAlphanumeric byte || byte == 0x2d || byte == 0x5f

/-- Split off the prefix of the first class that has it. -/
def TokenClass.strip (value : List UInt8) : Option (TokenClass × List UInt8) :=
  TokenClass.all.findSome? fun c =>
    (value.dropPrefix? (Rust.bytes c.prefixText)).map fun rest => (c, rest)

/-- `ParsedToken::parse`. -/
def ParsedToken.parse (value : List UInt8) : Option (Except TokenParseError ParsedToken) :=
  if value.length > SecretToken.maxLen then some (.error .malformed)
  else
    match TokenClass.strip value with
    | none => some (.error .unknownClass)
    | some (tokenClass, remainder) =>
      match remainder.dropPrefix? [0x5f] with
      | none => some (.error .malformed)
      | some remainder =>
        -- The identifier has a fixed width: `_` is itself base64url.
        if remainder[16]? ≠ some 0x5f then some (.error .malformed)
        else do
          let publicId ← Rust.sliceTo remainder 16
          let secret ← Rust.sliceFrom remainder 17
          if !(32 ≤ secret.length && secret.length ≤ 128) || !isBase64url publicId
              || !isBase64url secret then
            some (.error .malformed)
          else some (.ok ⟨tokenClass, publicId, secret⟩)

/-- A token that parses. -/
structure SecretToken where
  /-- The plaintext. -/
  value : String
  /-- Construction validates the token. -/
  valid : ∃ parsed, ParsedToken.parse (Rust.bytes value) = some (.ok parsed)

instance : DecidableEq SecretToken := fun a b =>
  decidable_of_iff (a.value = b.value) ⟨fun h => by cases a; cases b; cases h; rfl, congrArg _⟩

/-- `SecretToken::parsed`.  The invariant rules the other cases out. -/
def SecretToken.parsed (token : SecretToken) : ParsedToken :=
  match h : ParsedToken.parse (Rust.bytes token.value) with
  | some (.ok parsed) => parsed
  | some (.error _) => absurd token.valid (by simp [h])
  | none => absurd token.valid (by simp [h])

theorem SecretToken.parsed_eq {token : SecretToken} {parsed : ParsedToken}
    (h : ParsedToken.parse (Rust.bytes token.value) = some (.ok parsed)) :
    token.parsed = parsed := by
  unfold SecretToken.parsed
  split
  next other hother =>
    cases hother.symm.trans h
    rfl
  next error herror => cases herror.symm.trans h
  next hnone => cases hnone.symm.trans h

/-! ## Issued tokens -/

theorem TokenClass.strip_append (tokenClass : TokenClass) (rest : List UInt8) :
    TokenClass.strip (Rust.bytes tokenClass.prefixText ++ rest) = some (tokenClass, rest) := by
  have hbytes : Rust.bytes "c6b_v1" = [0x63, 0x36, 0x62, 0x5f, 0x76, 0x31] ∧
      Rust.bytes "c6s_v1" = [0x63, 0x36, 0x73, 0x5f, 0x76, 0x31] ∧
      Rust.bytes "c6f_v1" = [0x63, 0x36, 0x66, 0x5f, 0x76, 0x31] ∧
      Rust.bytes "c6x_v1" = [0x63, 0x36, 0x78, 0x5f, 0x76, 0x31] := by
    decide
  cases tokenClass with
  | bootstrap => simp [strip, all, prefixText, hbytes, List.dropPrefix?]
  | cloudSession => simp [strip, all, prefixText, hbytes, List.dropPrefix?]
  | csrf => simp [strip, all, prefixText, hbytes, List.dropPrefix?]
  | connector => simp [strip, all, prefixText, hbytes, List.dropPrefix?]

theorem ascii_of_base64url {value : List UInt8} (h : isBase64url value = true) :
    ∀ byte ∈ value, byte < 0x80 := by
  intro byte hbyte
  have hclass := List.all_eq_true.mp h byte hbyte
  simp only [Rust.isAsciiAlphanumeric, Rust.isAsciiLowercase, Rust.isAsciiUppercase,
    Rust.isAsciiDigit, Bool.or_eq_true, Bool.and_eq_true, decide_eq_true_eq, beq_iff_eq,
    UInt8.le_iff_toNat_le, UInt8.toNat_ofNat, ← UInt8.toNat_inj] at hclass
  rw [UInt8.lt_iff_toNat_lt]
  show byte.toNat < 128
  omega

/-- The parts of a token parse as they are. -/
theorem ParsedToken.parse_parts (tokenClass : TokenClass) {publicId secret : List UInt8}
    (hpublic : publicId.length = 16) (hmin : 32 ≤ secret.length) (hmax : secret.length ≤ 128)
    (hpublicBase : isBase64url publicId = true) (hsecretBase : isBase64url secret = true) :
    ParsedToken.parse (Rust.bytes tokenClass.prefixText ++ 0x5f :: (publicId ++ 0x5f :: secret)) =
      some (.ok ⟨tokenClass, publicId, secret⟩) := by
  have hprefix : (Rust.bytes tokenClass.prefixText).length = 6 := by
    cases tokenClass <;> rfl
  have hlen : ¬ (Rust.bytes tokenClass.prefixText ++
      0x5f :: (publicId ++ 0x5f :: secret)).length > SecretToken.maxLen := by
    simp only [List.length_append, List.length_cons, hprefix, hpublic, SecretToken.maxLen]
    omega
  have hsep : (publicId ++ 0x5f :: secret)[16]? = some 0x5f := by
    rw [List.getElem?_append_right (by omega), hpublic]
    rfl
  have hboundary : Rust.isCharBoundary (publicId ++ 0x5f :: secret) 16 = true := by
    rw [Rust.isCharBoundary, hsep]
    rfl
  have hafter : Rust.isCharBoundary (publicId ++ 0x5f :: secret) 17 = true := by
    have hnext : (publicId ++ 0x5f :: secret)[17]? = secret.head? := by
      rw [List.getElem?_append_right (by omega), hpublic]
      exact List.head?_eq_getElem?.symm
    cases secret with
    | nil => simp at hmin
    | cons byte rest =>
        rw [Rust.isCharBoundary, hnext]
        have hascii := ascii_of_base64url hsecretBase byte List.mem_cons_self
        show (decide (byte < 0x80) || decide (0xc0 ≤ byte)) = true
        rw [decide_eq_true hascii, Bool.true_or]
  have hto : Rust.sliceTo (publicId ++ 0x5f :: secret) 16 = some publicId := by
    rw [Rust.sliceTo, if_pos hboundary, List.take_append_of_le_length (by omega),
      List.take_of_length_le (by omega)]
  have hfrom : Rust.sliceFrom (publicId ++ 0x5f :: secret) 17 = some secret := by
    rw [Rust.sliceFrom, if_pos hafter, List.drop_append, List.drop_of_length_le (by omega),
      hpublic]
    rfl
  unfold parse
  rw [if_neg hlen, TokenClass.strip_append]
  simp only [List.dropPrefix?, beq_self_eq_true, if_true]
  rw [if_neg (by simp [hsep]), hto, hfrom]
  simp [hmin, hmax, hpublicBase, hsecretBase]

/-- The characters of a token: base64url, and no white space. -/
def IsTokenChar (c : Char) : Prop :=
  c.val ≤ 0x7f ∧ isBase64url [c.val.toUInt8] = true ∧ Rust.isWhitespace c = false

instance (c : Char) : Decidable (IsTokenChar c) := inferInstanceAs (Decidable (_ ∧ _ ∧ _))

/-- `{byte:02x}` of each byte. -/
def hex (bytes : List UInt8) : List Char := bytes.flatMap fun byte => Rust.hexDigits 2 byte.toNat

/-- `issue_token`, with the bytes it draws. -/
def issueToken (tokenClass : TokenClass) (publicId secret : List UInt8) : String :=
  tokenClass.prefixText ++ "_" ++ String.ofList (hex publicId) ++ "_" ++
    Rust.Base64.encode secret

theorem isTokenChar_digit : ∀ n < 16, IsTokenChar (Nat.digitChar n) := by
  decide

theorem isTokenChar_character : ∀ n < 64, IsTokenChar (Rust.Base64.character n) := by
  decide

theorem length_hex (bytes : List UInt8) : (hex bytes).length = 2 * bytes.length := by
  induction bytes with
  | nil => rfl
  | cons byte bytes ih =>
      rw [hex, List.flatMap_cons, List.length_append, Rust.length_hexDigits, List.length_cons]
      unfold hex at ih
      omega

theorem isTokenChar_hex (bytes : List UInt8) : ∀ c ∈ hex bytes, IsTokenChar c := by
  intro c hc
  obtain ⟨byte, -, hdigit⟩ := List.mem_flatMap.mp hc
  obtain ⟨d, hd, rfl⟩ := Rust.mem_hexDigits hdigit
  exact isTokenChar_digit d hd

theorem isTokenChar_base64 (bytes : List UInt8) :
    ∀ c ∈ (Rust.Base64.sextets bytes).map Rust.Base64.character, IsTokenChar c := by
  intro c hc
  obtain ⟨n, hn, rfl⟩ := List.mem_map.mp hc
  exact isTokenChar_character n (Rust.Base64.sextets_lt bytes n hn)

/-- Text of such characters in base64url bytes. -/
theorem isBase64url_bytes {cs : List Char} (h : ∀ c ∈ cs, IsTokenChar c) :
    Rust.bytes (String.ofList cs) = cs.map (fun c => c.val.toUInt8) ∧
      isBase64url (Rust.bytes (String.ofList cs)) = true := by
  have hbytes := Rust.bytes_ofList_of_ascii fun c hc => (h c hc).1
  refine ⟨hbytes, ?_⟩
  rw [hbytes, isBase64url, List.all_map]
  refine List.all_eq_true.mpr ?_
  intro c hc
  simpa [isBase64url] using (h c hc).2.1

theorem isTokenChar_issueToken {tokenClass : TokenClass} {publicId secret : List UInt8} :
    ∀ c ∈ (issueToken tokenClass publicId secret).toList, IsTokenChar c := by
  have hprefix : tokenClass.prefixText.toList.all (fun c => decide (IsTokenChar c)) = true := by
    cases tokenClass <;> decide
  have hsep : IsTokenChar '_' := by decide
  intro c hc
  simp only [issueToken, Rust.Base64.encode, String.toList_append, String.toList_ofList,
    List.mem_append] at hc
  rcases hc with (((hc | hc) | hc) | hc) | hc
  · exact of_decide_eq_true (List.all_eq_true.mp hprefix c hc)
  · rw [List.mem_singleton.mp hc]
    exact hsep
  · exact isTokenChar_hex publicId c hc
  · rw [List.mem_singleton.mp hc]
    exact hsep
  · exact isTokenChar_base64 secret c hc

/-- What is issued parses into what it was made from. -/
theorem parse_issued (tokenClass : TokenClass) {publicId secret : List UInt8}
    (hpublic : publicId.length = 8) (hsecret : secret.length = 32) :
    ParsedToken.parse (Rust.bytes (issueToken tokenClass publicId secret)) =
      some (.ok ⟨tokenClass, Rust.bytes (String.ofList (hex publicId)),
        Rust.bytes (Rust.Base64.encode secret)⟩) := by
  obtain ⟨hpublicBytes, hpublicBase⟩ := isBase64url_bytes (isTokenChar_hex publicId)
  have hsecretBase := (isBase64url_bytes (isTokenChar_base64 secret)).2
  have hpublicLength : (Rust.bytes (String.ofList (hex publicId))).length = 16 := by
    rw [hpublicBytes, List.length_map, length_hex, hpublic]
  have hsecretLength : (Rust.bytes (Rust.Base64.encode secret)).length = 43 := by
    rw [Rust.length_bytes, Rust.Base64.len_encode, hsecret]
  have hparts : Rust.bytes (issueToken tokenClass publicId secret) =
      Rust.bytes tokenClass.prefixText ++ 0x5f ::
        (Rust.bytes (String.ofList (hex publicId)) ++ 0x5f ::
          Rust.bytes (Rust.Base64.encode secret)) := by
    have hsep : Rust.bytes "_" = [0x5f] := by decide
    simp only [issueToken, Rust.bytes_append, hsep, List.append_assoc, List.nil_append,
      List.cons_append]
  rw [hparts]
  exact ParsedToken.parse_parts tokenClass hpublicLength (by omega) (by omega) hpublicBase
    hsecretBase

/-- What is issued parses, and is of its class. -/
theorem parse_issueToken (tokenClass : TokenClass) {publicId secret : List UInt8}
    (hpublic : publicId.length = 8) (hsecret : secret.length = 32) :
    ∃ parsed, ParsedToken.parse (Rust.bytes (issueToken tokenClass publicId secret)) =
      some (.ok parsed) ∧ parsed.tokenClass = tokenClass :=
  ⟨_, parse_issued tokenClass hpublic hsecret, rfl⟩

end Cresix.CloudCore
