import Cresix.Runner.Service

/-!
# Replay protection

`Authenticator` with every call of `verify` it is serving.  A call first reads
the clock and does the checks that need no state, and later, under the lock,
prunes the nonces, looks its own up and records it.  It prunes with the clock
it read before it waited for the lock, so an entry can be pruned while a
replay of its envelope is already past the checks.  `PrunesSpent` rules that
out, and under it no envelope is accepted twice.

Base64, the message authentication code and JSON are parameters.
-/

namespace Cresix.Runner

open Rust (Uuid)
open Transition (System Event)

/-! ## Envelopes -/

/-- The only protocol version. -/
def protocolVersion : Nat := 1

/-- How far the clocks of the two sides may be apart. -/
def maxClockSkewMs : Nat := 60000

/-- How many nonces are remembered. -/
def maxReplayEntries : Nat := 4096

/-- A command as it is sent. -/
structure SignedEnvelope where
  version : Nat
  requestId : Uuid
  issuedAtMs : Int
  /-- 16 random bytes in base64url. -/
  nonce : String
  /-- The JSON of the command in base64url. -/
  payload : String
  /-- The authentication code of the other fields in base64url. -/
  mac : String
deriving DecidableEq, Repr

/-- Why an envelope is refused. -/
inductive ProtocolError where
  | weakKey
  | authenticationFailed
  | replayDetected
  | staleRequest
  | unsupportedVersion
  | malformed (message : String)
deriving DecidableEq, Repr

/-- `ProtocolError::code`. -/
def ProtocolError.code : ProtocolError → ErrorCode
  | .authenticationFailed => .authenticationFailed
  | .weakKey => .authenticationFailed
  | .replayDetected => .replayDetected
  | .staleRequest => .staleRequest
  | .unsupportedVersion => .unsupportedVersion
  | .malformed _ => .malformedRequest

/-- What the authenticator uses of the crates it builds on. -/
structure Primitives where
  /-- `URL_SAFE_NO_PAD.decode`. -/
  decode : String → Except String (List UInt8)
  /-- The supplied code decodes and is the code of the envelope under the key. -/
  macMatches : SignedEnvelope → Bool
  /-- `serde_json::from_slice`. -/
  parse : List UInt8 → Except String RunnerCommand

/-! ## The nonces -/

/-- The map of nonces to the time their envelopes were issued at. -/
structure NonceCache where
  entries : List (String × Int)
  /-- A nonce has one entry. -/
  nodup : (entries.map Prod.fst).Nodup

namespace NonceCache

def empty : NonceCache := ⟨[], List.nodup_nil⟩

/-- `HashMap::retain` on the times. -/
def retain (cache : NonceCache) (keep : Int → Bool) : NonceCache where
  entries := cache.entries.filter fun entry => keep entry.2
  nodup := cache.nodup.sublist (List.filter_sublist.map Prod.fst)

def contains (cache : NonceCache) (nonce : String) : Bool :=
  cache.entries.any fun entry => entry.1 = nonce

def len (cache : NonceCache) : Nat := cache.entries.length

/-- `HashMap::insert` of a nonce that has no entry. -/
def insert (cache : NonceCache) (nonce : String) (issuedAtMs : Int)
    (hnew : cache.contains nonce = false) : NonceCache where
  entries := (nonce, issuedAtMs) :: cache.entries
  nodup := by
    refine List.nodup_cons.mpr ⟨fun hmem => ?_, cache.nodup⟩
    obtain ⟨entry, hentry, heq⟩ := List.mem_map.mp hmem
    exact absurd (List.any_eq_true.mpr ⟨entry, hentry, decide_eq_true heq⟩) (by
      rw [show cache.entries.any _ = false from hnew]
      simp)

theorem contains_of_mem {cache : NonceCache} {nonce : String} {issuedAtMs : Int}
    (hmem : (nonce, issuedAtMs) ∈ cache.entries) : cache.contains nonce = true :=
  List.any_eq_true.mpr ⟨_, hmem, decide_eq_true rfl⟩

theorem mem_retain {cache : NonceCache} {keep : Int → Bool} {entry : String × Int} :
    entry ∈ (cache.retain keep).entries ↔ entry ∈ cache.entries ∧ keep entry.2 = true :=
  List.mem_filter

theorem len_retain_le (cache : NonceCache) (keep : Int → Bool) :
    (cache.retain keep).len ≤ cache.len :=
  List.length_filter_le ..

end NonceCache

/-! ## Verification -/

/-- The clock `now` is within the allowed skew of a timestamp. -/
def withinSkew (now issuedAtMs : Int) : Bool := (now - issuedAtMs).natAbs ≤ maxClockSkewMs

/-- `verify` up to the lock. -/
def verifyStateless (primitives : Primitives) (envelope : SignedEnvelope) (now : Int) :
    Except ProtocolError Unit :=
  if envelope.version ≠ protocolVersion then .error .unsupportedVersion
  else if !withinSkew now envelope.issuedAtMs then .error .staleRequest
  else match primitives.decode envelope.nonce with
    | .error _ => .error .authenticationFailed
    | .ok nonce =>
        if nonce.length ≠ 16 then .error .authenticationFailed
        else if primitives.macMatches envelope then .ok ()
        else .error .authenticationFailed

/-- `verify` under the lock. -/
def verifyLocked (cache : NonceCache) (envelope : SignedEnvelope) (now : Int) :
    Except ProtocolError Unit × NonceCache :=
  let seen := cache.retain (withinSkew now)
  if hseen : seen.contains envelope.nonce then (.error .replayDetected, seen)
  else if maxReplayEntries ≤ seen.len then (.error .replayDetected, seen)
  else (.ok (), seen.insert envelope.nonce envelope.issuedAtMs (eq_false_of_ne_true hseen))

/-- What passed the checks before the lock is within the skew. -/
theorem withinSkew_of_verifyStateless {primitives : Primitives} {envelope : SignedEnvelope}
    {now : Int} (hok : verifyStateless primitives envelope now = .ok ()) :
    withinSkew now envelope.issuedAtMs = true := by
  simp only [verifyStateless] at hok
  split at hok
  next => cases hok
  next =>
    split at hok
    next => cases hok
    next hskew => simpa using hskew

/-- Past the skew an envelope is stale for good. -/
theorem withinSkew_eq_false {now issuedAtMs : Int} (h : issuedAtMs + maxClockSkewMs < now) :
    withinSkew now issuedAtMs = false := by
  refine decide_eq_false ?_
  omega

/-- The lock section keeps the entries within the skew of its clock. -/
theorem mem_verifyLocked {cache : NonceCache} {envelope : SignedEnvelope} {now : Int}
    {entry : String × Int} (hmem : entry ∈ cache.entries)
    (hskew : withinSkew now entry.2 = true) :
    entry ∈ (verifyLocked cache envelope now).2.entries := by
  have hretain : entry ∈ (cache.retain (withinSkew now)).entries :=
    NonceCache.mem_retain.mpr ⟨hmem, hskew⟩
  simp only [verifyLocked]
  split
  next => exact hretain
  next =>
    split
    next => exact hretain
    next => exact List.mem_cons_of_mem _ hretain

theorem len_verifyLocked {cache : NonceCache} (envelope : SignedEnvelope) (now : Int)
    (hlen : cache.len ≤ maxReplayEntries) :
    (verifyLocked cache envelope now).2.len ≤ maxReplayEntries := by
  have hretain := cache.len_retain_le (withinSkew now)
  simp only [verifyLocked]
  split
  next => exact hretain.trans hlen
  next =>
    split
    next => exact hretain.trans hlen
    next hroom =>
      show (cache.retain (withinSkew now)).len + 1 ≤ maxReplayEntries
      omega

/-- A nonce that is accepted was not remembered and is from now on. -/
theorem verifyLocked_ok {cache : NonceCache} {envelope : SignedEnvelope} {now : Int}
    (hok : (verifyLocked cache envelope now).1 = .ok ()) :
    (∀ issuedAtMs, (envelope.nonce, issuedAtMs) ∈ cache.entries →
      withinSkew now issuedAtMs = false) ∧
    (envelope.nonce, envelope.issuedAtMs) ∈ (verifyLocked cache envelope now).2.entries := by
  simp only [verifyLocked] at hok ⊢
  split at hok
  next => cases hok
  next hseen =>
    split at hok
    next => cases hok
    next hroom =>
      rw [dif_neg hseen, if_neg hroom]
      refine ⟨fun issuedAtMs hmem => ?_, List.mem_cons_self⟩
      refine eq_false_of_ne_true fun hskew => hseen ?_
      exact NonceCache.contains_of_mem (NonceCache.mem_retain.mpr ⟨hmem, hskew⟩)

/-- `verify` after the lock. -/
def decodePayload (primitives : Primitives) (envelope : SignedEnvelope) :
    Except ProtocolError RunnerCommand :=
  match primitives.decode envelope.payload with
  | .error message => .error (.malformed message)
  | .ok payload =>
      match primitives.parse payload with
      | .error message => .error (.malformed message)
      | .ok command => .ok command

/-! ## Calls -/

/-- Names a call of `verify`. -/
abbrev CallId := Nat

/-- Where a call stands. -/
inductive Call where
  | idle
  /-- A check before the lock failed. -/
  | failed (envelope : SignedEnvelope) (error : ProtocolError)
  /-- The checks before the lock passed with the clock at `now`. -/
  | checked (envelope : SignedEnvelope) (now : Int)
  /-- The nonce was refused. -/
  | refused (envelope : SignedEnvelope) (error : ProtocolError)
  /-- The nonce was recorded, and the payload gave a command or did not. -/
  | accepted (envelope : SignedEnvelope) (command : Except ProtocolError RunnerCommand)

/-- The envelope a call accepted. -/
def Call.accepted? : Call → Option SignedEnvelope
  | .accepted envelope _ => some envelope
  | _ => none

/-- The authenticator, its calls and the clock of the host. -/
structure Authenticator where
  clock : Int
  seenNonces : NonceCache
  calls : CallId → Call

namespace Authenticator

/-- The next piece of a call, or time passing. -/
inductive Action where
  | tick (now : Int)
  | arrive (c : CallId) (envelope : SignedEnvelope)
  | lock (c : CallId)

/-- The call after the checks that need no state. -/
def received (primitives : Primitives) (envelope : SignedEnvelope) (now : Int) : Call :=
  match verifyStateless primitives envelope now with
  | .error error => .failed envelope error
  | .ok () => .checked envelope now

/-- The call after the lock. -/
def decided (primitives : Primitives) (envelope : SignedEnvelope) :
    Except ProtocolError Unit → Call
  | .error error => .refused envelope error
  | .ok () => .accepted envelope (decodePayload primitives envelope)

/-- One step; `none` when the clock would run back or the call does not stand
before that piece. -/
def step (primitives : Primitives) (s : Authenticator) : Action → Option Authenticator
  | .tick now => if s.clock ≤ now then some { s with clock := now } else none
  | .arrive c envelope =>
      match s.calls c with
      | .idle =>
          some { s with
            calls := Function.update s.calls c (received primitives envelope s.clock) }
      | _ => none
  | .lock c =>
      match s.calls c with
      | .checked envelope now =>
          let (result, seen) := verifyLocked s.seenNonces envelope now
          some { s with
            seenNonces := seen
            calls := Function.update s.calls c (decided primitives envelope result) }
      | _ => none

/-- An authenticator that just started. -/
def new (now : Int) : Authenticator where
  clock := now
  seenNonces := .empty
  calls _ := .idle

/-- The authenticator under any interleaving of any calls. -/
def verifier (primitives : Primitives) : System Authenticator Action :=
  .ofOption (fun s => ∃ now, s = new now) (step primitives)

/-! ## The law -/

/-- In the step a call accepts an envelope. -/
def Accepts (e : Event Authenticator Action) (c : CallId) (envelope : SignedEnvelope) : Prop :=
  (e.pre.calls c).accepted? = none ∧ (e.post.calls c).accepted? = some envelope

instance (e : Event Authenticator Action) (c : CallId) (envelope : SignedEnvelope) :
    Decidable (Accepts e c envelope) :=
  inferInstanceAs (Decidable (_ ∧ _))

/-- The call a step belongs to. -/
def Action.call : Action → Option CallId
  | .tick _ => none
  | .arrive c _ => some c
  | .lock c => some c

/-- What replay protection asks of the events of a run that ends in `t`. -/
structure ReplayProtected (tr : List (Event Authenticator Action)) (t : Authenticator) :
    Prop where
  /-- No envelope is accepted twice. -/
  once : tr.Pairwise fun first later =>
    ∀ c c' envelope, Accepts first c envelope → ¬Accepts later c' envelope
  /-- The cache stays within its bound. -/
  bounded : ∀ e ∈ tr, e.post.seenNonces.len ≤ maxReplayEntries
  /-- A call that failed before the lock left the cache as it was. -/
  failed_frame : ∀ c envelope error, t.calls c = .failed envelope error →
    ∀ e ∈ tr, e.label.call = some c → e.post.seenNonces = e.pre.seenNonces

/-- The entries a step prunes are of the past, and no call waits for the lock
with the nonce and time of one. -/
def PrunesSpent (s : Authenticator) (a : Action) (_ : Authenticator) : Prop :=
  ∀ c envelope now, a = .lock c → s.calls c = .checked envelope now →
    ∀ nonce issuedAtMs, (nonce, issuedAtMs) ∈ s.seenNonces.entries →
      withinSkew now issuedAtMs = false →
      issuedAtMs + maxClockSkewMs < now ∧
      ∀ c' waiting now', s.calls c' = .checked waiting now' →
        ¬(waiting.nonce = nonce ∧ waiting.issuedAtMs = issuedAtMs)

/-! ## Runs -/

variable {primitives : Primitives} {s t : Authenticator}

/-- The ways a step goes. -/
inductive Step (primitives : Primitives) (s : Authenticator) :
    Action → Authenticator → Prop where
  | tick {now : Int} : s.clock ≤ now → Step primitives s (.tick now) { s with clock := now }
  | arrive {c : CallId} {envelope : SignedEnvelope} :
      s.calls c = .idle →
      Step primitives s (.arrive c envelope)
        { s with calls := Function.update s.calls c (received primitives envelope s.clock) }
  | lock {c : CallId} {envelope : SignedEnvelope} {now : Int} :
      s.calls c = .checked envelope now →
      Step primitives s (.lock c)
        { s with
          seenNonces := (verifyLocked s.seenNonces envelope now).2
          calls := Function.update s.calls c
            (decided primitives envelope (verifyLocked s.seenNonces envelope now).1) }

theorem Step.of_step {a : Action} (hstep : s.step primitives a = some t) :
    Step primitives s a t := by
  cases a with
  | tick now =>
      simp only [step] at hstep
      split at hstep
      next hle => cases hstep; exact .tick hle
      next => cases hstep
  | arrive c envelope =>
      simp only [step] at hstep
      split at hstep
      next hc => cases hstep; exact .arrive hc
      next => cases hstep
  | lock c =>
      simp only [step] at hstep
      split at hstep
      next hc => cases hstep; exact .lock hc
      next => cases hstep

/-- A call that is being received is not waiting unless it passed the checks. -/
theorem received_checked {envelope waiting : SignedEnvelope} {now now' : Int}
    (h : received primitives envelope now = .checked waiting now') :
    waiting = envelope ∧ now' = now ∧ withinSkew now envelope.issuedAtMs = true := by
  simp only [received] at h
  split at h
  next => cases h
  next hok =>
    cases h
    exact ⟨rfl, rfl, withinSkew_of_verifyStateless hok⟩

/-- A call that was decided does not wait. -/
theorem decided_ne_checked {envelope waiting : SignedEnvelope} {now : Int}
    {result : Except ProtocolError Unit} :
    decided primitives envelope result ≠ .checked waiting now := by
  cases result with
  | error => nofun
  | ok => nofun

/-- The call that accepts is the one the step moves. -/
theorem Accepts.moved {a : Action} {c c₀ : CallId} {next : Call} {envelope : SignedEnvelope}
    (haccept : Accepts ⟨s, a, t⟩ c envelope) (ht : t.calls = Function.update s.calls c₀ next) :
    c = c₀ ∧ next.accepted? = some envelope := by
  obtain ⟨hpre, hpost⟩ := haccept
  simp only [ht] at hpre hpost
  rcases eq_or_ne c c₀ with rfl | hother
  · rw [Function.update_self] at hpost
    exact ⟨rfl, hpost⟩
  · rw [Function.update_of_ne hother, hpre] at hpost
    cases hpost

/-- An envelope is accepted by a call that waited with it and found its nonce
new. -/
theorem Step.accepts {a : Action} {c : CallId} {envelope : SignedEnvelope}
    (hstep : Step primitives s a t) (haccept : Accepts ⟨s, a, t⟩ c envelope) :
    ∃ now, a = .lock c ∧ s.calls c = .checked envelope now ∧
      (verifyLocked s.seenNonces envelope now).1 = .ok () ∧
      t.seenNonces = (verifyLocked s.seenNonces envelope now).2 := by
  cases hstep with
  | tick =>
      obtain ⟨hpre, hpost⟩ := haccept
      cases hpre.symm.trans hpost
  | arrive hc =>
      obtain ⟨_, hnext⟩ := haccept.moved rfl
      simp only [received] at hnext
      split at hnext
      next => cases hnext
      next => cases hnext
  | @lock c₀ envelope₀ now hc =>
      obtain ⟨rfl, hnext⟩ := haccept.moved rfl
      generalize hresult : (verifyLocked s.seenNonces envelope₀ now).1 = result at hnext
      cases result with
      | error => cases hnext
      | ok =>
          cases hnext
          exact ⟨now, rfl, hc, hresult, rfl⟩

/-- A decided call takes no further step. -/
theorem Step.keeps_decided {a : Action} (hstep : Step primitives s a t) {c : CallId}
    {envelope : SignedEnvelope} {result : Except ProtocolError Unit}
    (hc : s.calls c = decided primitives envelope result) :
    t.calls c = decided primitives envelope result := by
  cases hstep with
  | tick => exact hc
  | arrive hidle =>
      refine (Function.update_of_ne ?_ ..).trans hc
      rintro rfl
      rw [hidle] at hc
      cases result with
      | error => cases hc
      | ok => cases hc
  | lock hchecked =>
      refine (Function.update_of_ne ?_ ..).trans hc
      rintro rfl
      exact decided_ne_checked (hc.symm.trans hchecked)

/-- What holds after any run whose steps prune spent entries only. -/
structure History (primitives : Primitives) (tr : List (Event Authenticator Action))
    (s : Authenticator) : Prop where
  /-- A waiting call read the clock before now and is within its skew. -/
  waiting : ∀ c envelope now, s.calls c = .checked envelope now →
    now ≤ s.clock ∧ withinSkew now envelope.issuedAtMs = true
  /-- An accepted envelope is remembered, or it is stale and no call waits with it. -/
  remembered : ∀ e ∈ tr, ∀ c envelope, Accepts e c envelope →
    (envelope.nonce, envelope.issuedAtMs) ∈ s.seenNonces.entries ∨
    (envelope.issuedAtMs + maxClockSkewMs < s.clock ∧
      ∀ c' now, s.calls c' ≠ .checked envelope now)
  /-- A call that went through the lock was decided there. -/
  settled : ∀ e ∈ tr, ∀ c, e.label = .lock c → ∃ envelope result,
    s.calls c = decided primitives envelope result
  bounded : s.seenNonces.len ≤ maxReplayEntries
  once : tr.Pairwise fun first later =>
    ∀ c c' envelope, Accepts first c envelope → ¬Accepts later c' envelope

theorem History.new (now : Int) : History primitives [] (new now) where
  waiting := nofun
  remembered := nofun
  settled := nofun
  bounded := Nat.zero_le _
  once := .nil

/-- A waiting call after a step waited before or was just received. -/
theorem Step.waiting {a : Action} (hstep : Step primitives s a t) {c : CallId}
    {envelope : SignedEnvelope} {now : Int} (hc : t.calls c = .checked envelope now) :
    s.calls c = .checked envelope now ∨
      (now = s.clock ∧ withinSkew s.clock envelope.issuedAtMs = true) := by
  cases hstep with
  | tick => exact .inl hc
  | @arrive c₀ received hidle =>
      rcases eq_or_ne c c₀ with rfl | hne
      · simp only [Function.update_self] at hc
        obtain ⟨rfl, rfl, hskew⟩ := received_checked hc
        exact .inr ⟨rfl, hskew⟩
      · simp only [Function.update_of_ne hne] at hc
        exact .inl hc
  | @lock c₀ _ _ _ =>
      rcases eq_or_ne c c₀ with rfl | hne
      · simp only [Function.update_self] at hc
        exact absurd hc decided_ne_checked
      · simp only [Function.update_of_ne hne] at hc
        exact .inl hc

theorem Step.clock_le {a : Action} (hstep : Step primitives s a t) : s.clock ≤ t.clock := by
  cases hstep with
  | tick hle => exact hle
  | arrive => exact Int.le_refl _
  | lock => exact Int.le_refl _

/-- A stale envelope no call waits with stays so. -/
theorem Step.stale {a : Action} {envelope : SignedEnvelope} (hstep : Step primitives s a t)
    (hstale : envelope.issuedAtMs + maxClockSkewMs < s.clock)
    (hnone : ∀ c now, s.calls c ≠ .checked envelope now) :
    envelope.issuedAtMs + maxClockSkewMs < t.clock ∧
      ∀ c now, t.calls c ≠ .checked envelope now := by
  refine ⟨Int.lt_of_lt_of_le hstale hstep.clock_le, fun c now hc => ?_⟩
  rcases hstep.waiting hc with hold | ⟨_, hskew⟩
  · exact hnone c now hold
  · rw [withinSkew_eq_false hstale] at hskew
    cases hskew

/-- A remembered envelope stays remembered or becomes stale. -/
theorem History.remember {tr : List (Event Authenticator Action)} {a : Action}
    {envelope : SignedEnvelope} (hhist : History primitives tr s)
    (hstep : Step primitives s a t) (hspent : PrunesSpent s a t)
    (hmem : (envelope.nonce, envelope.issuedAtMs) ∈ s.seenNonces.entries) :
    (envelope.nonce, envelope.issuedAtMs) ∈ t.seenNonces.entries ∨
    (envelope.issuedAtMs + maxClockSkewMs < t.clock ∧
      ∀ c now, t.calls c ≠ .checked envelope now) := by
  cases hstep with
  | tick => exact .inl hmem
  | arrive => exact .inl hmem
  | @lock c waiting now hc =>
      cases hskew : withinSkew now envelope.issuedAtMs with
      | true => exact .inl (mem_verifyLocked hmem hskew)
      | false =>
          obtain ⟨hpast, hothers⟩ := hspent c waiting now rfl hc _ _ hmem hskew
          have hstale : envelope.issuedAtMs + maxClockSkewMs < s.clock :=
            Int.lt_of_lt_of_le hpast (hhist.waiting c waiting now hc).1
          have hnone : ∀ c' now', s.calls c' ≠ .checked envelope now' :=
            fun c' now' hc' => hothers c' envelope now' hc' ⟨rfl, rfl⟩
          exact .inr (Step.stale (.lock hc) hstale hnone)

theorem History.step {tr : List (Event Authenticator Action)} {a : Action}
    (hhist : History primitives tr s) (hstep : Step primitives s a t)
    (hspent : PrunesSpent s a t) : History primitives (tr ++ [⟨s, a, t⟩]) t := by
  refine ⟨?_, ?_, ?_, ?_, ?_⟩
  · intro c envelope now hc
    rcases hstep.waiting hc with hold | ⟨rfl, hskew⟩
    · obtain ⟨hle, hskew⟩ := hhist.waiting c envelope now hold
      exact ⟨Int.le_trans hle hstep.clock_le, hskew⟩
    · exact ⟨hstep.clock_le, hskew⟩
  · refine Transition.forall_mem_snoc ?_ ?_
    · intro e hold c envelope haccept
      rcases hhist.remembered e hold c envelope haccept with hmem | ⟨hstale, hnone⟩
      · exact hhist.remember hstep hspent hmem
      · exact .inr (hstep.stale hstale hnone)
    · intro c envelope haccept
      obtain ⟨now, _, _, hok, hseen⟩ := hstep.accepts haccept
      rw [hseen]
      exact .inl (verifyLocked_ok hok).2
  · refine Transition.forall_mem_snoc ?_ ?_
    · intro e hold c hlabel
      obtain ⟨envelope, result, hc⟩ := hhist.settled e hold c hlabel
      exact ⟨envelope, result, hstep.keeps_decided hc⟩
    · intro c hlabel
      cases hlabel
      cases hstep with
      | lock => exact ⟨_, _, Function.update_self ..⟩
  · cases hstep with
    | tick => exact hhist.bounded
    | arrive => exact hhist.bounded
    | lock => exact len_verifyLocked _ _ hhist.bounded
  · refine Transition.pairwise_snoc hhist.once ?_
    intro e he c c' envelope hfirst hlater
    obtain ⟨now, _, hc, hok, _⟩ := hstep.accepts hlater
    rcases hhist.remembered e he c envelope hfirst with hmem | ⟨_, hnone⟩
    · have hpast := (verifyLocked_ok hok).1 _ hmem
      rw [(hhist.waiting c' envelope now hc).2] at hpast
      cases hpast
    · exact hnone c' now hc

/-- The cache is within its bound in every reachable state. -/
theorem bounded_of_reachable (h : (verifier primitives).Reachable s) :
    s.seenNonces.len ≤ maxReplayEntries := by
  refine h.invariant (I := fun s => s.seenNonces.len ≤ maxReplayEntries) ?_ ?_
  · rintro _ ⟨now, rfl⟩
    exact Nat.zero_le _
  · intro s a t hlen hstep
    cases Step.of_step hstep with
    | tick => exact hlen
    | arrive => exact hlen
    | lock => exact len_verifyLocked _ _ hlen

/-- A step of a call that failed before the lock leaves the cache as it was. -/
theorem History.failed_frame {tr : List (Event Authenticator Action)} {c : CallId}
    {envelope : SignedEnvelope} {error : ProtocolError} (hhist : History primitives tr t)
    (hc : t.calls c = .failed envelope error) {pre post : Authenticator} {a : Action}
    (he : ⟨pre, a, post⟩ ∈ tr) (hstep : Step primitives pre a post) (hcall : a.call = some c) :
    post.seenNonces = pre.seenNonces := by
  cases hstep with
  | tick => rfl
  | arrive => rfl
  | lock =>
      cases hcall
      obtain ⟨_, result, hdecided⟩ := hhist.settled _ he c rfl
      rw [hc] at hdecided
      cases result with
      | error => cases hdecided
      | ok => cases hdecided

/-- In every run whose steps prune spent entries only, no envelope is accepted
twice. -/
theorem replayProtected_of_prunesSpent {tr : List (Event Authenticator Action)}
    (hstart : (verifier primitives).start s)
    (hrun : ((verifier primitives).restrict PrunesSpent).Run s tr t) : ReplayProtected tr t := by
  have hhist : History primitives tr t := by
    refine hrun.history (I := History primitives) ?_ ?_
    · obtain ⟨now, rfl⟩ := hstart
      exact .new now
    · intro tr u a v _ hhist hstep
      exact hhist.step (.of_step hstep.1) hstep.2
  refine ⟨hhist.once, ?_, ?_⟩
  · intro e he
    obtain ⟨before, after, _, hbefore, hstep, _⟩ := hrun.of_restrict.split he
    exact bounded_of_reachable ⟨s, _, hstart, .snoc hbefore hstep⟩
  · intro c envelope error hc e he hcall
    exact hhist.failed_frame hc he (.of_step (hrun.of_restrict.step_of_mem he)) hcall

/-- The primitives on the texts of the envelopes below: two nonces, and the
payload `ping`. -/
def samplePrimitives : Primitives where
  decode text :=
    if text = "AAAAAAAAAAAAAAAAAAAAAA" then .ok (List.replicate 16 0)
    else if text = "AAAAAAAAAAAAAAAAAAAAAQ" then .ok (List.replicate 15 0 ++ [1])
    else if text = "eyJ0eXBlIjoicGluZyJ9" then .ok (Rust.bytes "\x7b\"type\":\"ping\"\x7d")
    else .error "Invalid symbol"
  macMatches _ := true
  parse text :=
    if text = Rust.bytes "\x7b\"type\":\"ping\"\x7d" then .ok .ping
    else .error "unknown variant"

/-- A signed `ping`. -/
def signedPing (issuedAtMs : Int) (nonce : String) : SignedEnvelope :=
  ⟨1, 7, issuedAtMs, nonce, "eyJ0eXBlIjoicGluZyJ9", "AAAA"⟩

/-- The events of the steps from an empty cache. -/
def eventsOf (actions : List Action) : List (Event Authenticator Action) :=
  System.events (step samplePrimitives) (new 0) actions

/-- A step that prunes no entry. -/
def prunesNothing (s : Authenticator) : Action → Bool
  | .lock c =>
      match s.calls c with
      | .checked _ now => s.seenNonces.entries.all fun entry => withinSkew now entry.2
      | _ => true
  | _ => true

theorem PrunesSpent.of_prunesNothing {a : Action} (h : prunesNothing s a = true) :
    PrunesSpent s a t := by
  rintro c envelope now rfl hc nonce issuedAtMs hmem hskew
  simp only [prunesNothing, hc] at h
  rw [List.all_eq_true.mp h _ hmem] at hskew
  cases hskew

/-- A `ping` and its replay a minute later. -/
def pingTwice : List Action :=
  [.arrive 0 (signedPing 0 "AAAAAAAAAAAAAAAAAAAAAA"), .lock 0, .tick 60000,
   .arrive 1 (signedPing 0 "AAAAAAAAAAAAAAAAAAAAAA"), .lock 1]

/-- The replay is refused by such a run. -/
theorem replayProtected_pingTwice : ∃ t, ReplayProtected (eventsOf pingTwice) t := by
  obtain ⟨t, hrun⟩ : ∃ t, (verifier samplePrimitives).Run (new 0) (eventsOf pingTwice) t :=
    System.Run.events (by decide)
  have hnothing : (eventsOf pingTwice).all (fun e => prunesNothing e.pre e.label) = true := by
    decide
  refine ⟨t, replayProtected_of_prunesSpent ⟨0, rfl⟩ (hrun.restrict ?_)⟩
  intro e he
  exact .of_prunesNothing (List.all_eq_true.mp hnothing e he)

/-! ## A stale clock -/

/-- A `ping` arrives twice at the last moment of its skew.  One call takes the
lock, then a later call prunes its nonce, and then the other call takes the
lock. -/
def replayedPing : List Action :=
  [.tick 60000, .arrive 0 (signedPing 0 "AAAAAAAAAAAAAAAAAAAAAA"),
   .arrive 1 (signedPing 0 "AAAAAAAAAAAAAAAAAAAAAA"), .lock 1, .tick 60001,
   .arrive 2 (signedPing 60001 "AAAAAAAAAAAAAAAAAAAAAQ"), .lock 2, .lock 0]

/-- Not every run is protected: an envelope can be accepted by two calls. -/
theorem not_replayProtected :
    ¬∀ (primitives : Primitives) (s t : Authenticator) (tr : List (Event Authenticator Action)),
      (verifier primitives).start s → (verifier primitives).Run s tr t →
      ReplayProtected tr t := by
  intro hall
  obtain ⟨t, hrun⟩ : ∃ t, (verifier samplePrimitives).Run (new 0) (eventsOf replayedPing) t :=
    System.Run.events (by decide)
  have honce : (eventsOf replayedPing).Pairwise fun first later =>
      Accepts first 1 (signedPing 0 "AAAAAAAAAAAAAAAAAAAAAA") →
      ¬Accepts later 0 (signedPing 0 "AAAAAAAAAAAAAAAAAAAAAA") :=
    (hall samplePrimitives (new 0) t _ ⟨0, rfl⟩ hrun).once.imp fun h => h 1 0 _
  exact absurd honce (by decide)

end Authenticator

end Cresix.Runner
