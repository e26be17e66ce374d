import Cresix.Runner.Reading

/-!
# Signed commands

A client signs a command and sends it as JSON, and the runner verifies what it
read.  The code of an envelope is taken over its other fields, and the payload
is the JSON of the command in Base64, so a verifier with the same key reads the
command that was signed (`signed_command_read`).

The message authentication code and the syntax of JSON are parameters.
-/

namespace Cresix.Runner

open Rust (Uuid UuidParser Content content toVec)

/-- `MIN_AUTH_KEY_BYTES`. -/
def minAuthKeyBytes : Nat := 32

/-- `validate_auth_key`. -/
def validateAuthKey (key : List UInt8) : Except ProtocolError Unit :=
  if key.length < minAuthKeyBytes then .error .weakKey else .ok ()

/-- `signing_input`. -/
def signingInput (envelope : SignedEnvelope) : String :=
  "c6-runner-v1\n" ++ Rust.hyphenated envelope.requestId ++ "\n" ++ envelope.issuedAtMs.repr ++
    "\n" ++ envelope.nonce ++ "\n" ++ envelope.payload

/-- What both sides use of the crates they build on. -/
structure Crates where
  /-- `Hmac<Sha256>` of a key and a message. -/
  hmac : List UInt8 → List UInt8 → List UInt8
  /-- The value of a JSON text, as `serde_json::from_slice` goes through it. -/
  fromSlice : List UInt8 → Option Content
  uuid : UuidParser
  /-- What a text that is not Base64 is refused with. -/
  decodeError : String → String
  /-- What a text that is no command is refused with. -/
  parseError : List UInt8 → String

namespace Crates

variable (crates : Crates)

/-- The text of the value is read as the value. -/
def Reads (value : Json.Value) : Prop := crates.fromSlice (toVec value) = some (content value)

/-- `compute_mac`. -/
def computeMac (key : List UInt8) (envelope : SignedEnvelope) : List UInt8 :=
  crates.hmac key (Rust.bytes (signingInput envelope))

/-- `SignedEnvelope::sign`. -/
def sign (key : List UInt8) (requestId : Uuid) (issuedAtMs : Int) (nonce : List UInt8)
    (command : RunnerCommand) : Except ProtocolError SignedEnvelope := do
  validateAuthKey key
  return SignedEnvelope.sign (crates.computeMac key) requestId issuedAtMs nonce command

/-- An envelope is read from a frame. -/
def readEnvelope (frame : List UInt8) : Option SignedEnvelope :=
  (crates.fromSlice frame).bind (SignedEnvelope.fromContent crates.uuid)

/-- The primitives of a verifier with a key. -/
def primitives (key : List UInt8) : Primitives where
  decode text :=
    match Rust.Base64.urlSafeNoPad (Rust.bytes text) with
    | some bytes => .ok bytes
    | none => .error (crates.decodeError text)
  macMatches envelope :=
    Rust.Base64.urlSafeNoPad (Rust.bytes envelope.mac) = some (crates.computeMac key envelope)
  parse text :=
    match (crates.fromSlice text).bind (RunnerCommand.fromContent crates.uuid false) with
    | some command => .ok command
    | none => .error (crates.parseError text)

/-- `Authenticator::verify`, with nothing else going on. -/
def verify (key : List UInt8) (cache : NonceCache) (envelope : SignedEnvelope) (now : Int) :
    Except ProtocolError RunnerCommand × NonceCache :=
  match verifyStateless (crates.primitives key) envelope now with
  | .error error => (.error error, cache)
  | .ok () =>
      match verifyLocked cache envelope now with
      | (.error error, seen) => (.error error, seen)
      | (.ok (), seen) => (decodePayload (crates.primitives key) envelope, seen)

end Crates

/-! ## A signed envelope -/

section

variable {crates : Crates} {key : List UInt8} {requestId : Uuid} {issuedAtMs now : Int}
  {nonce : List UInt8} {command : RunnerCommand} {cache : NonceCache}

/-- The envelope that is signed. -/
def signedEnvelope (crates : Crates) (key : List UInt8) (requestId : Uuid) (issuedAtMs : Int)
    (nonce : List UInt8) (command : RunnerCommand) : SignedEnvelope :=
  SignedEnvelope.sign (crates.computeMac key) requestId issuedAtMs nonce command

theorem sign_eq_ok (hkey : minAuthKeyBytes ≤ key.length) :
    crates.sign key requestId issuedAtMs nonce command =
      .ok (signedEnvelope crates key requestId issuedAtMs nonce command) := by
  rw [Crates.sign, validateAuthKey, if_neg (Nat.not_lt.mpr hkey)]
  rfl

/-- The envelope is read back from its JSON. -/
theorem readEnvelope_signed (hissued : Content.InRange 64 issuedAtMs)
    (hreads : crates.Reads (signedEnvelope crates key requestId issuedAtMs nonce command).toJson) :
    crates.readEnvelope (toVec (signedEnvelope crates key requestId issuedAtMs nonce command).toJson)
      = some (signedEnvelope crates key requestId issuedAtMs nonce command) := by
  have hversion : protocolVersion < 2 ^ 8 := by decide
  rw [Crates.readEnvelope, hreads]
  exact (SignedEnvelope.format crates.uuid).read_write ⟨hversion, hissued⟩

/-- The checks before the lock pass: the code was taken over the same fields. -/
theorem verifyStateless_signed (hnonce : nonce.length = 16)
    (hskew : withinSkew now issuedAtMs = true) :
    verifyStateless (crates.primitives key)
      (signedEnvelope crates key requestId issuedAtMs nonce command) now = .ok () := by
  have hdecode : (crates.primitives key).decode
      (signedEnvelope crates key requestId issuedAtMs nonce command).nonce = .ok nonce := by
    simp only [Crates.primitives, signedEnvelope, SignedEnvelope.sign,
      Rust.Base64.urlSafeNoPad_encode]
  have hmac : (crates.primitives key).macMatches
      (signedEnvelope crates key requestId issuedAtMs nonce command) = true := by
    simp only [Crates.primitives, signedEnvelope, SignedEnvelope.sign,
      Rust.Base64.urlSafeNoPad_encode, decide_eq_true_eq]
    rfl
  rw [verifyStateless, if_neg (by simp [signedEnvelope, SignedEnvelope.sign]),
    if_neg (by simp [signedEnvelope, SignedEnvelope.sign, hskew])]
  simp only [hdecode, hnonce, ne_eq, not_true_eq_false, if_false, hmac, if_true]

/-- A nonce that is not in the cache is recorded when there is room. -/
theorem verifyLocked_fresh {envelope : SignedEnvelope}
    (hfresh : cache.contains envelope.nonce = false) (hroom : cache.len < maxReplayEntries) :
    (verifyLocked cache envelope now).1 = .ok () := by
  have hseen : ¬ (cache.retain (withinSkew now)).contains envelope.nonce = true := by
    intro hcontains
    obtain ⟨entry, hentry, heq⟩ := List.any_eq_true.mp hcontains
    have hcached := NonceCache.contains_of_mem (NonceCache.mem_retain.mp hentry).1
    rw [of_decide_eq_true heq, hfresh] at hcached
    cases hcached
  have hlen := cache.len_retain_le (withinSkew now)
  rw [verifyLocked, dif_neg hseen, if_neg (by omega)]

/-- The payload is the command. -/
theorem decodePayload_signed (hfits : command.Fits) (hreads : crates.Reads command.toJson) :
    decodePayload (crates.primitives key)
      (signedEnvelope crates key requestId issuedAtMs nonce command) = .ok command := by
  have hread : RunnerCommand.fromContent crates.uuid false (content command.toJson) = some command :=
    (RunnerCommand.format crates.uuid false).read_write hfits
  simp only [decodePayload, Crates.primitives, signedEnvelope, SignedEnvelope.sign,
    Rust.Base64.urlSafeNoPad_encode, show crates.fromSlice _ = _ from hreads, Option.bind_some,
    hread]

theorem verify_signed (hfits : command.Fits) (hnonce : nonce.length = 16)
    (hskew : withinSkew now issuedAtMs = true)
    (hfresh : cache.contains (Rust.Base64.encode nonce) = false)
    (hroom : cache.len < maxReplayEntries) (hreads : crates.Reads command.toJson) :
    (crates.verify key cache (signedEnvelope crates key requestId issuedAtMs nonce command)
      now).1 = .ok command := by
  generalize henvelope : signedEnvelope crates key requestId issuedAtMs nonce command = envelope
  have hstateless : verifyStateless (crates.primitives key) envelope now = .ok () :=
    henvelope ▸ verifyStateless_signed hnonce hskew
  have hlocked : (verifyLocked cache envelope now).1 = .ok () :=
    verifyLocked_fresh (henvelope ▸ hfresh) hroom
  have hpayload : decodePayload (crates.primitives key) envelope = .ok command :=
    henvelope ▸ decodePayload_signed hfits hreads
  rw [Crates.verify, hstateless]
  cases hresult : verifyLocked cache envelope now with
  | mk result seen =>
      rw [hresult] at hlocked
      cases hlocked
      exact hpayload

end

/-! ## Round trips -/

/-- A verifier with the same key gives the command that was signed, from the
bytes the envelope was sent in; and what the readers of commands and network
policies accept they read again as the same after it was written. -/
theorem signed_command_read :
    (∀ (crates : Crates) (key : List UInt8) (requestId : Uuid) (issuedAtMs now : Int)
        (nonce : List UInt8) (command : RunnerCommand) (cache : NonceCache),
      minAuthKeyBytes ≤ key.length → command.Fits → Content.InRange 64 issuedAtMs →
      nonce.length = 16 → withinSkew now issuedAtMs = true →
      cache.contains (Rust.Base64.encode nonce) = false → cache.len < maxReplayEntries →
      crates.Reads command.toJson →
      crates.Reads (signedEnvelope crates key requestId issuedAtMs nonce command).toJson →
      ∃ sent received,
        crates.sign key requestId issuedAtMs nonce command = .ok sent ∧
        crates.readEnvelope (toVec sent.toJson) = some received ∧
        (crates.verify key cache received now).1 = .ok command) ∧
    (∀ (parser : UuidParser) (buffered : Bool) (c : Content) (command : RunnerCommand),
      RunnerCommand.fromContent parser buffered c = some command →
      RunnerCommand.fromContent parser buffered (content command.toJson) = some command) ∧
    ∀ (buffered : Bool) (c : Content) (policy : NetworkPolicy),
      NetworkPolicy.fromContent buffered c = some policy →
      NetworkPolicy.fromContent buffered (content policy.toJson) = some policy := by
  refine ⟨?_, ?_, ?_⟩
  · intro crates key requestId issuedAtMs now nonce command cache hkey hfits hissued hnonce hskew
      hfresh hroom hcommand henvelope
    exact ⟨_, _, sign_eq_ok hkey, readEnvelope_signed hissued henvelope,
      verify_signed hfits hnonce hskew hfresh hroom hcommand⟩
  · intro parser buffered c command h
    exact (RunnerCommand.format parser buffered).read_write_read h
  · intro buffered c policy h
    exact (NetworkPolicy.format buffered).read_write_read h

/-- A signed `cancel` on its way, with a code that copies the key. -/
def sampleCrates : Crates where
  hmac key _ := key
  fromSlice text :=
    if text = toVec (RunnerCommand.cancel 7).toJson then
      some (content (RunnerCommand.cancel 7).toJson)
    else some (content (SignedEnvelope.sign (fun _ => List.replicate 32 1) 5 1000
      (List.replicate 16 2) (.cancel 7)).toJson)
  uuid := Rust.hyphenatedParser
  decodeError _ := "Invalid symbol"
  parseError _ := "missing field"

theorem signed_command_read_cancel :
    ∃ sent received,
      sampleCrates.sign (List.replicate 32 1) 5 1000 (List.replicate 16 2) (.cancel 7) = .ok sent ∧
      sampleCrates.readEnvelope (toVec sent.toJson) = some received ∧
      (sampleCrates.verify (List.replicate 32 1) .empty received 2000).1 = .ok (.cancel 7) := by
  have hdifferent : toVec (signedEnvelope sampleCrates (List.replicate 32 1) 5 1000
      (List.replicate 16 2) (.cancel 7)).toJson ≠ toVec (RunnerCommand.cancel 7).toJson := by
    decide +kernel
  have hcommand : sampleCrates.Reads (RunnerCommand.cancel 7).toJson := by
    simp only [Crates.Reads, sampleCrates, if_true]
  have henvelope : sampleCrates.Reads (signedEnvelope sampleCrates (List.replicate 32 1) 5 1000
      (List.replicate 16 2) (.cancel 7)).toJson := by
    simp only [Crates.Reads, sampleCrates] at hdifferent ⊢
    rw [if_neg hdifferent]
    rfl
  exact signed_command_read.1 sampleCrates (List.replicate 32 1) 5 1000 2000
    (List.replicate 16 2) (.cancel 7) .empty (by decide) trivial (by decide) (by decide)
    (by decide) (by decide) (by decide) hcommand henvelope

end Cresix.Runner
