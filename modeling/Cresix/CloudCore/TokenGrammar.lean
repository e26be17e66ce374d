import Cresix.CloudCore.Token

/-!
# The grammar of cloud tokens

A token is a class, a public identifier of sixteen characters and a secret,
with an underscore behind each of the first two.  The underscore is a character
of base64url as well, so the parser counts characters and does not look for
separators.  Its slices are taken beside the underscore it has found, which is
a character of its own in every text (`parse_ne_none`), and `token_grammar`
says which texts it accepts and as what.
-/

namespace Cresix.CloudCore

/-- The grammar of a token. -/
structure IsToken (value : List UInt8) (parsed : ParsedToken) : Prop where
  length_le : value.length ≤ SecretToken.maxLen
  text : value = Rust.bytes parsed.tokenClass.prefixText ++
    0x5f :: (parsed.publicId ++ 0x5f :: parsed.secret)
  publicId_length : parsed.publicId.length = 16
  publicId_base64url : isBase64url parsed.publicId = true
  secret_length : 32 ≤ parsed.secret.length ∧ parsed.secret.length ≤ 128
  secret_base64url : isBase64url parsed.secret = true

section

variable {value rest remainder : List UInt8} {tokenClass : TokenClass}
  {parsed parsed' : ParsedToken} {text : String}

theorem TokenClass.strip_eq_some (h : TokenClass.strip value = some (tokenClass, rest)) :
    value = Rust.bytes tokenClass.prefixText ++ rest := by
  obtain ⟨c, -, hstrip⟩ := List.exists_of_findSome?_eq_some h
  obtain ⟨rest', hdrop, heq⟩ := Option.map_eq_some_iff.mp hstrip
  cases heq
  obtain ⟨front, hvalue, hfront⟩ := List.dropPrefix?_eq_some_iff.mp hdrop
  rw [hvalue, beq_iff_eq.mp hfront]

/-- Where the separator is, both slices are taken at the start of a character. -/
theorem slices (htext : Rust.bytes text = Rust.bytes tokenClass.prefixText ++ 0x5f :: remainder)
    (hsep : remainder[16]? = some 0x5f) :
    Rust.sliceTo remainder 16 = some (remainder.take 16) ∧
      Rust.sliceFrom remainder 17 = some (remainder.drop 17) := by
  have hfront : Rust.bytes text = (Rust.bytes tokenClass.prefixText ++ [0x5f]) ++ remainder := by
    rw [htext, List.append_assoc]
    rfl
  exact Rust.slices_of_ascii hfront hsep (by decide)

/-- What is left behind the class and its separator. -/
theorem strip_separator (hstrip : TokenClass.strip value = some (tokenClass, rest))
    (hdrop : rest.dropPrefix? [0x5f] = some remainder) :
    value = Rust.bytes tokenClass.prefixText ++ 0x5f :: remainder := by
  obtain ⟨front, hrest, hfront⟩ := List.dropPrefix?_eq_some_iff.mp hdrop
  rw [TokenClass.strip_eq_some hstrip, hrest, beq_iff_eq.mp hfront]
  rfl

/-- A text is refused, or accepted as what the grammar makes of it.  No slice is taken inside of a
character. -/
theorem parse_cases (text : String) :
    (∃ error, ParsedToken.parse (Rust.bytes text) = some (.error error)) ∨
      ∃ parsed, ParsedToken.parse (Rust.bytes text) = some (.ok parsed) ∧
        IsToken (Rust.bytes text) parsed := by
  unfold ParsedToken.parse
  split
  next => exact .inl ⟨_, rfl⟩
  next hlen =>
    split
    next => exact .inl ⟨_, rfl⟩
    next tokenClass rest hstrip =>
      split
      next => exact .inl ⟨_, rfl⟩
      next remainder hdrop =>
        split
        next => exact .inl ⟨_, rfl⟩
        next hsep =>
          have htext := strip_separator hstrip hdrop
          obtain ⟨hto, hfrom⟩ := slices htext (not_not.mp hsep)
          rw [hto, hfrom]
          simp only [Option.bind_eq_bind, Option.bind_some]
          split
          next => exact .inl ⟨_, rfl⟩
          next hrest =>
            simp only [Bool.or_eq_true, Bool.not_eq_true', not_or, Bool.not_eq_false,
              Bool.and_eq_true, decide_eq_true_eq] at hrest
            have hsixteen : 16 < remainder.length :=
              (List.getElem?_eq_some_iff.mp (not_not.mp hsep)).1
            refine .inr ⟨_, rfl, not_lt.mp hlen, ?_, ?_, hrest.1.2, hrest.1.1, hrest.2⟩
            · rw [htext, ← Rust.eq_take_cons_drop (not_not.mp hsep)]
            · rw [List.length_take]
              omega

theorem parse_ne_none (text : String) : ParsedToken.parse (Rust.bytes text) ≠ none := by
  rcases parse_cases text with ⟨error, h⟩ | ⟨parsed, h, -⟩
  · simp [h]
  · simp [h]

theorem IsToken.of_parse (h : ParsedToken.parse (Rust.bytes text) = some (.ok parsed)) :
    IsToken (Rust.bytes text) parsed := by
  rcases parse_cases text with ⟨error, herror⟩ | ⟨parsed', hok, htoken⟩
  · rw [herror] at h
    cases h
  · rw [hok] at h
    cases h
    exact htoken

/-- A token parses as what the grammar makes of it, on any bytes. -/
theorem IsToken.parse (h : IsToken value parsed) : ParsedToken.parse value = some (.ok parsed) := by
  rw [h.text]
  exact ParsedToken.parse_parts parsed.tokenClass h.publicId_length h.secret_length.1
    h.secret_length.2 h.publicId_base64url h.secret_base64url

/-- A text is accepted as what the grammar makes of it. -/
theorem parse_eq_ok_iff :
    ParsedToken.parse (Rust.bytes text) = some (.ok parsed) ↔ IsToken (Rust.bytes text) parsed :=
  ⟨fun h => .of_parse h, fun h => h.parse⟩

/-- There is one way to take a token apart. -/
theorem IsToken.unique (h : IsToken value parsed) (h' : IsToken value parsed') :
    parsed = parsed' := by
  have hparse := h.parse
  rw [h'.parse] at hparse
  cases hparse
  rfl

end

/-- The parser never panics, the grammar says which texts it accepts and as what, a text has one
reading and so one class, and a token that is issued is read as what it was made from. -/
theorem token_grammar :
    (∀ text : String, ParsedToken.parse (Rust.bytes text) ≠ none) ∧
      (∀ (text : String) (parsed : ParsedToken),
        ParsedToken.parse (Rust.bytes text) = some (.ok parsed) ↔
          IsToken (Rust.bytes text) parsed) ∧
      (∀ (text : String) (parsed parsed' : ParsedToken), IsToken (Rust.bytes text) parsed →
        IsToken (Rust.bytes text) parsed' → parsed = parsed') ∧
      ∀ (tokenClass : TokenClass) (publicId : Vector UInt8 8) (secret : Vector UInt8 32),
        ParsedToken.parse (Rust.bytes (issueToken tokenClass publicId.toList secret.toList)) =
          some (.ok ⟨tokenClass, Rust.bytes (String.ofList (hex publicId.toList)),
            Rust.bytes (Rust.Base64.encode secret.toList)⟩) := by
  refine ⟨parse_ne_none, fun _ _ => parse_eq_ok_iff, fun _ _ _ h h' => h.unique h', ?_⟩
  intro tokenClass publicId secret
  exact parse_issued tokenClass publicId.length_toList secret.length_toList

end Cresix.CloudCore
