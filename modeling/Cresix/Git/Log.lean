import Cresix.Git.ReadBack

/-!
# Branches and logs

`list_branches` reads what `git for-each-ref` prints, a line for each branch.
`list_commits` asks `git rev-list` for identifiers and then `git show` for each
commit, whose message is the last field of what is printed, followed by a
newline.  `read_commit` takes all newlines at its end away.
-/

namespace Cresix.Git

open Concurrent (Program)
open History (Has Ancestor)

/-- `Branch`. -/
structure Branch where
  name : String
  oid : String
deriving DecidableEq, Repr

/-- `Commit`. -/
structure Commit where
  oid : String
  parentOids : List String
  authorName : String
  authorEmail : String
  authoredAt : String
  message : String
deriving DecidableEq, Repr

/-! ## Reading records -/

/-- `slice::splitn` at a byte. -/
def splitN (sep : UInt8) : Nat → List UInt8 → List (List UInt8)
  | 0, _ => []
  | 1, bytes => [bytes]
  | n + 2, bytes =>
      match bytes.idxOf? sep with
      | none => [bytes]
      | some i => bytes.take i :: splitN sep (n + 1) (bytes.drop (i + 1))

/-- The lines that are not empty. -/
def lines (bytes : List UInt8) : List (List UInt8) :=
  (bytes.splitOn 0x0a).filter fun line => !line.isEmpty

def parseBranch (line : List UInt8) : Except GitError Branch :=
  match splitN 0 2 line with
  | [name, oid] => do
      let name ← utf8 name
      let oid ← utf8 oid
      return ⟨name, oid⟩
  | _ => .error (.invalidOutput "malformed branch record")

def parseCommit (record : List UInt8) : Except GitError Commit :=
  match splitN 0 6 record with
  | [oid, parents, authorName, authorEmail, authoredAt, message] => do
      let oid ← utf8 oid
      let parents ← utf8 parents
      let authorName ← utf8 authorName
      let authorEmail ← utf8 authorEmail
      let authoredAt ← utf8 authoredAt
      let message ← utf8 message
      return ⟨oid, (Rust.splitWhitespace parents.toList).map String.ofList, authorName,
        authorEmail, authoredAt, Rust.trimEndMatches '\n' message⟩
  | _ => .error (.invalidOutput "malformed commit record")

/-! ## What Git prints -/

/-- A line of `git for-each-ref`. -/
def branchRecord (branch : Branch) : List UInt8 :=
  Rust.bytes branch.name ++ 0 :: Rust.bytes branch.oid

/-- The parents of a commit with blanks between them. -/
def parentsText : List String → List Char
  | [] => []
  | [parent] => parent.toList
  | parent :: next :: parents => parent.toList ++ ' ' :: parentsText (next :: parents)

/-- What `git show` prints of a commit. -/
def commitRecord (oid : String) (parents : List String) (body : CommitBody) : List UInt8 :=
  Rust.bytes oid ++ 0 :: (Rust.bytes (String.ofList (parentsText parents)) ++
    0 :: (Rust.bytes body.authorName.text ++ 0 :: (Rust.bytes body.authorEmail.text ++
      0 :: (Rust.bytes body.authoredAt.text ++
        0 :: Rust.bytes (body.message.text ++ "\n")))))

/-- Lines with their ends. -/
def printed (records : List (List UInt8)) : List UInt8 := records.flatMap (· ++ [0x0a])

namespace ObjectStore

/-- The branches by their names, in the order of the references. -/
def branches (store : ObjectStore) : List Branch :=
  (sortedKeys store.repo.refs).filterMap fun reference => do
    let name ← Rust.stripPrefix reference "refs/heads/"
    let oid ← store.repo.refs.lookup reference
    pure ⟨name, oid⟩

/-- The commits that a log may list: as many ancestors as there are, up to the
limit, the commit itself first. -/
def IsLog (store : ObjectStore) (oid : String) (limit : Nat) (order : List String) : Prop :=
  order.head? = some oid ∧ order.Nodup ∧ order.length ≤ limit ∧
    (∀ c ∈ order, History.isAncestor store.repo.commits c oid = true) ∧
    (order.length = limit ∨ ∀ node ∈ store.repo.commits,
      History.isAncestor store.repo.commits node.id oid = true → node.id ∈ order)

instance (store : ObjectStore) (oid : String) (limit : Nat) (order : List String) :
    Decidable (store.IsLog oid limit order) := by
  unfold IsLog
  infer_instance

end ObjectStore

/-- `git for-each-ref`. -/
def forEachRef : FileM (List UInt8) :=
  output fun _ store => some (printed (store.branches.map branchRecord))

/-- `git rev-list`. -/
def revList (oid : String) (limit : Nat) : FileM (List UInt8) :=
  output fun i store =>
    if store.IsLog oid limit i.order then some (printed (i.order.map Rust.bytes)) else none

/-- `git show`. -/
def showCommit (oid : String) : FileM (List UInt8) :=
  output fun _ store => do
    let node ← store.repo.commits.find? fun node => node.id = oid
    let body ← store.bodies.lookup oid
    pure (commitRecord oid node.parents body)

/-! ## The calls -/

/-- `Repository::list_branches`. -/
def listBranches : FileM (List Branch) := do
  let listing ← forEachRef
  Program.check ((lines listing).mapM parseBranch)

/-- `read_commit`. -/
def readCommit (oid : String) : FileM Commit := do
  let record ← showCommit oid
  Program.check (parseCommit record)

/-- The loop over the identifiers. -/
def readCommits : List (List UInt8) → FileM (List Commit)
  | [] => pure []
  | line :: lines => do
      let oid ← Program.check (utf8 line)
      let commit ← readCommit oid
      let commits ← readCommits lines
      pure (commit :: commits)

/-- `list_commits`, once the revision is resolved. -/
def listCommitsAt (oid : String) (limit : Nat) : FileM (List Commit) := do
  let listing ← revList oid limit
  readCommits (lines listing)

def checkLimit (limits : ReadLimits) (limit : Nat) : Except GitError Unit :=
  if limit = 0 ∨ limits.maxLogEntries < limit then
    .error (.limitExceeded "invalid commit log limit")
  else .ok ()

/-- `Repository::list_commits`. -/
def Repository.listCommits (r : Repository) (limits : ReadLimits) (revision : String)
    (limit : Nat) : FileM (List Commit) := do
  Program.check (checkLimit limits limit)
  let oid ← onRepo (r.resolveCommit revision)
  listCommitsAt oid limit

/-! ## Records are read back -/

section

variable {text oid : String} {parents : List String} {body : CommitBody} {sep : UInt8}
  {front back : List UInt8} {records : List (List UInt8)}

theorem splitN_append (h : sep ∉ front) (n : Nat) (back : List UInt8) :
    splitN sep (n + 2) (front ++ sep :: back) = front :: splitN sep (n + 1) back := by
  have hdrop : (front ++ sep :: back).drop (front.length + 1) = back := by
    rw [← List.drop_drop, List.drop_left]
    rfl
  rw [splitN, Search.idxOf?_append_cons h]
  simp only [List.take_left, hdrop]

/-- A byte is not there if its character is not. -/
theorem notMem_bytes {c : Char} {b : UInt8} (h : c ∉ text.toList) (hb : b < 0x80)
    (hc : c.toNat = b.toNat) : b ∉ Rust.bytes text := by
  intro hmem
  obtain ⟨d, hd, hval⟩ := Rust.exists_of_mem_bytes hmem hb
  have heq : d = c := Char.toNat_inj.mp (hval.trans hc.symm)
  exact h (heq ▸ hd)

theorem utf8_bytes (text : String) : utf8 (Rust.bytes text) = .ok text := by
  rw [utf8, Rust.fromUtf8_bytes]

theorem splitOn_printed (h : ∀ record ∈ records, 0x0a ∉ record) :
    (printed records).splitOn 0x0a = records ++ [[]] := by
  induction records with
  | nil => rfl
  | cons record records ih =>
      obtain ⟨hrecord, hrecords⟩ := List.forall_mem_cons.mp h
      have hprinted : printed (record :: records) = record ++ 0x0a :: printed records := by
        rw [printed, List.flatMap_cons, List.append_assoc]
        rfl
      rw [hprinted, List.splitOn_append_cons_self_of_not_mem hrecord, ih hrecords,
        List.cons_append]

theorem lines_printed (h : ∀ record ∈ records, record ≠ [] ∧ 0x0a ∉ record) :
    lines (printed records) = records := by
  rw [lines, splitOn_printed fun record hrecord => (h record hrecord).2, List.filter_append,
    List.filter_eq_self.mpr]
  · exact List.append_nil records
  · intro record hrecord
    simpa using (h record hrecord).1

theorem blank_notMem_of_isOid (h : isOid oid = true) :
    oid.toList ≠ [] ∧ ∀ c ∈ oid.toList, Rust.isWhitespace c = false := by
  refine ⟨?_, fun c hc => ?_⟩
  · intro hnil
    have hempty : oid = "" := String.toList_injective hnil
    rw [hempty] at h
    exact absurd h (by decide)
  · obtain ⟨hlow, hhigh⟩ := visible_of_isOid h c hc
    exact not_isWhitespace_of_visible ⟨by omega, by omega⟩

/-- The words of the parents are the parents. -/
theorem splitWhitespace_parents (h : ∀ p ∈ parents, isOid p = true) :
    (Rust.splitWhitespace (parentsText parents)).map String.ofList = parents := by
  induction parents using parentsText.induct with
  | case1 => rfl
  | case2 parent =>
      obtain ⟨hne, hblank⟩ := blank_notMem_of_isOid (h parent List.mem_cons_self)
      rw [parentsText, Rust.splitWhitespace_last hne hblank, List.map_singleton,
        String.ofList_toList]
  | case3 parent next parents ih =>
      obtain ⟨hfirst, hrest⟩ := List.forall_mem_cons.mp h
      obtain ⟨hne, hblank⟩ := blank_notMem_of_isOid hfirst
      rw [parentsText, Rust.splitWhitespace_word hne hblank (by decide), List.map_cons, ih hrest,
        String.ofList_toList]

theorem trimEnd_newline (text : String) :
    Rust.trimEndMatches '\n' (text ++ "\n") = Rust.trimEndMatches '\n' text := by
  have hreverse : (text ++ "\n").toList.reverse = '\n' :: text.toList.reverse := by
    rw [String.toList_append, List.reverse_append]
    rfl
  rw [Rust.trimEndMatches, Rust.trimEndMatches, hreverse, List.dropWhile_cons_of_pos (by decide)]

/-- What is shown of a commit. -/
def Commit.of (oid : String) (parents : List String) (body : CommitBody) : Commit :=
  ⟨oid, parents, body.authorName.text, body.authorEmail.text, body.authoredAt.text,
    Rust.trimEndMatches '\n' body.message.text⟩

theorem zero_notMem_parents (h : ∀ p ∈ parents, isOid p = true) :
    '\x00' ∉ parentsText parents := by
  induction parents using parentsText.induct with
  | case1 => exact List.not_mem_nil
  | case2 parent =>
      intro hmem
      exact absurd (visible_of_isOid (h parent List.mem_cons_self) _ hmem).1 (by decide)
  | case3 parent next parents ih =>
      obtain ⟨hfirst, hrest⟩ := List.forall_mem_cons.mp h
      intro hmem
      rcases List.mem_append.mp hmem with hparent | hmem
      · exact absurd (visible_of_isOid hfirst _ hparent).1 (by decide)
      · rcases List.mem_cons.mp hmem with hblank | hmem
        · cases hblank
        · exact ih hrest hmem

/-- A record is read as its commit; the newline that `git show` adds is taken
away with those of the message. -/
theorem parseCommit_record (hoid : isOid oid = true) (hparents : ∀ p ∈ parents, isOid p = true) :
    parseCommit (commitRecord oid parents body) = .ok (Commit.of oid parents body) := by
  have hplain : ∀ plain : PlainText, (0 : UInt8) ∉ Rust.bytes plain.text :=
    fun plain => notMem_bytes plain.nul_notMem (by decide) rfl
  have hid : (0 : UInt8) ∉ Rust.bytes oid := by
    refine notMem_bytes (c := '\x00') (fun hmem => ?_) (by decide) rfl
    exact absurd (visible_of_isOid hoid _ hmem).1 (by decide)
  have hparent : (0 : UInt8) ∉ Rust.bytes (String.ofList (parentsText parents)) := by
    refine notMem_bytes (c := '\x00') (fun hmem => ?_) (by decide) rfl
    rw [String.toList_ofList] at hmem
    exact zero_notMem_parents hparents hmem
  have hsplit : splitN 0 6 (commitRecord oid parents body) =
      [Rust.bytes oid, Rust.bytes (String.ofList (parentsText parents)),
        Rust.bytes body.authorName.text, Rust.bytes body.authorEmail.text,
        Rust.bytes body.authoredAt.text, Rust.bytes (body.message.text ++ "\n")] := by
    rw [commitRecord, splitN_append hid 4, splitN_append hparent 3, splitN_append (hplain _) 2,
      splitN_append (hplain _) 1, splitN_append (hplain _) 0, splitN]
  rw [parseCommit, hsplit]
  simp only [utf8_bytes, Except.bind, bind, String.toList_ofList, trimEnd_newline,
    splitWhitespace_parents hparents]
  rfl

/-- A line is read as its branch. -/
theorem parseBranch_record {branch : Branch} (h : '\x00' ∉ branch.name.toList) :
    parseBranch (branchRecord branch) = .ok branch := by
  have hname : (0 : UInt8) ∉ Rust.bytes branch.name := notMem_bytes h (by decide) rfl
  have hsplit : splitN 0 2 (branchRecord branch) =
      [Rust.bytes branch.name, Rust.bytes branch.oid] := by
    rw [branchRecord, splitN_append hname 0, splitN]
  rw [parseBranch, hsplit]
  simp only [utf8_bytes, Except.bind, bind]
  rfl

end

/-! ## Listing branches -/

section

variable {s t : ObjectStore} {naming : Naming} {branch : Branch} {name oid : String}

theorem mem_branches : ⟨name, oid⟩ ∈ t.branches ↔
    t.repo.refs.lookup ("refs/heads/" ++ name) = some oid := by
  rw [ObjectStore.branches, List.mem_filterMap]
  constructor
  · rintro ⟨reference, -, h⟩
    obtain ⟨short, hshort, h⟩ := Option.bind_eq_some_iff.mp h
    obtain ⟨found, hfound, h⟩ := Option.bind_eq_some_iff.mp h
    cases h
    rw [← Rust.stripPrefix_eq_some_iff.mp hshort]
    exact hfound
  · intro h
    refine ⟨"refs/heads/" ++ name, ?_, ?_⟩
    · exact mem_sortedKeys.mpr (Finmap.mem_iff.mpr ⟨oid, h⟩)
    · rw [Rust.stripPrefix_eq_some_iff.mpr rfl, Option.bind_eq_bind, Option.bind_some, h]
      rfl

theorem lines_branches (ht : t.Sound naming) :
    (lines (printed (t.branches.map branchRecord))).mapM parseBranch = .ok t.branches := by
  have hplain : ∀ branch ∈ t.branches, '\x00' ∉ branch.name.toList ∧
      '\n' ∉ branch.name.toList ∧ isOid branch.oid = true := by
    rintro ⟨name, oid⟩ hmem
    have hlookup := mem_branches.mp hmem
    obtain ⟨hnul, hnewline⟩ := ht.refs _ _ hlookup
    rw [String.toList_append] at hnul hnewline
    exact ⟨fun h => hnul (List.mem_append_right _ h),
      fun h => hnewline (List.mem_append_right _ h), ht.ids _ (t.repo.exist _ _ hlookup)⟩
  rw [lines_printed, Checks.mapM_eq_ok, List.forall₂_map_left_iff, List.forall₂_same]
  · exact fun branch hmem => parseBranch_record (hplain branch hmem).1
  · intro record hmem
    obtain ⟨branch, hbranch, rfl⟩ := List.mem_map.mp hmem
    obtain ⟨-, hnewline, hoid⟩ := hplain branch hbranch
    refine ⟨List.append_ne_nil_of_right_ne_nil _ (List.cons_ne_nil _ _), fun hbyte => ?_⟩
    rcases List.mem_append.mp hbyte with hname | hrest
    · exact notMem_bytes hnewline (by decide) rfl hname
    · rcases List.mem_cons.mp hrest with hnul | hid
      · exact absurd hnul (by decide)
      · refine notMem_bytes (c := '\n') (fun hmem => ?_) (by decide) rfl hid
        exact absurd (visible_of_isOid hoid _ hmem).1 (by decide)

end

/-! ## Listing commits -/

/-- A commit is shown as it is. -/
def Shown (t : ObjectStore) (oid : String) (commit : Commit) : Prop :=
  ∃ parents body, ⟨oid, parents⟩ ∈ t.repo.commits ∧ t.bodies.lookup oid = some body ∧
    commit = Commit.of oid parents body

/-- What a log answers. -/
structure Log (oid : String) (limit : Nat) (commits : List Commit) (t : ObjectStore) : Prop where
  first : (commits.map Commit.oid).head? = some oid
  once : (commits.map Commit.oid).Nodup
  short : commits.length ≤ limit
  shown : ∀ commit ∈ commits, Shown t commit.oid commit
  ancestors : ∀ commit ∈ commits, Ancestor t.repo.commits commit.oid oid
  whole : commits.length = limit ∨
    ∀ c, Ancestor t.repo.commits c oid → c ∈ commits.map Commit.oid

/-- The outcome of a log. -/
def LogRead (oid : String) (limit : Nat) : Except GitError (List Commit) → ObjectStore → Prop
  | .ok commits, t => Log oid limit commits t
  | .error error, _ => IsFault error

section

variable {s t : ObjectStore} {naming : Naming} {oid : String} {commit : Commit} {limit : Nat}
  {commits : List Commit} {order : List String}

theorem Shown.oid_eq (h : Shown t oid commit) : commit.oid = oid := by
  obtain ⟨parents, body, -, -, rfl⟩ := h
  rfl

theorem Shown.grows (h : Shown s oid commit) (hst : Grows naming s t) : Shown t oid commit := by
  obtain ⟨parents, body, hnode, hbody, rfl⟩ := h
  exact ⟨parents, body, hst.commits hnode, hst.bodies _ _ hbody, rfl⟩

theorem Log.grows (h : Log oid limit commits s) (hst : Grows naming s t) :
    Log oid limit commits t where
  first := h.first
  once := h.once
  short := h.short
  shown commit hmem := (h.shown commit hmem).grows hst
  ancestors commit hmem := (h.ancestors commit hmem).mono hst.commits
  whole := by
    refine h.whole.imp id fun hall c hc => hall c ?_
    obtain ⟨commit, hmem, hoid⟩ := List.mem_map.mp (List.mem_of_mem_head? h.first)
    have hhas := (h.ancestors commit hmem).has_right
    exact hc.of_subset s.repo.grown t.repo.grown hst.commits hhas

theorem LogRead.grows {outcome : Except GitError (List Commit)}
    (h : LogRead oid limit outcome s) (hst : Grows naming s t) : LogRead oid limit outcome t := by
  cases outcome with
  | ok commits => exact Log.grows h hst
  | error error => exact h

theorem readCommit_ensures (hs : s.Sound naming) :
    ((readCommit oid).caught : FileM _).Ensures (Grows naming) (Grows naming)
      (fun outcome t => match outcome with
        | .ok commit => Shown t oid commit
        | .error error => IsFault error) s := by
  rw [readCommit, Program.caught_bind]
  apply files_bind (Q := fun result t => match result with
    | .ok record => ∃ parents body, isOid oid = true ∧ (∀ p ∈ parents, isOid p = true) ∧
        ⟨oid, parents⟩ ∈ t.repo.commits ∧ t.bodies.lookup oid = some body ∧
        record = commitRecord oid parents body
    | .error error => IsFault error)
  · apply caught_output
    · intro i t record hst hrecord
      obtain ⟨node, hnode, hrecord⟩ := Option.bind_eq_some_iff.mp hrecord
      obtain ⟨body, hbody, hrecord⟩ := Option.bind_eq_some_iff.mp hrecord
      cases hrecord
      have hmem := List.mem_of_find?_eq_some hnode
      have hid := List.find?_some hnode
      obtain rfl : node.id = oid := by simpa using hid
      have ht := hst.sound hs
      exact ⟨node.parents, body, ht.ids _ ⟨node, hmem, rfl⟩,
        fun p hp => ht.ids p (t.repo.grown.has_parent hmem hp), hmem, hbody, rfl⟩
    · exact fun t error hst hfault => hfault
  · rintro (error | record) t hst hrecord
    · exact files_pure hrecord
    · obtain ⟨parents, body, hoid, hparents, hnode, hbody, rfl⟩ := hrecord
      dsimp only
      rw [Program.caught_check, parseCommit_record hoid hparents]
      exact files_pure ⟨parents, body, hnode, hbody, rfl⟩

/-- The loop tells the commits one after the other. -/
theorem readCommits_ensures (hs : s.Sound naming) :
    ((readCommits (order.map Rust.bytes)).caught : FileM _).Ensures (Grows naming) (Grows naming)
      (fun outcome t => match outcome with
        | .ok commits => List.Forall₂ (Shown t) order commits
        | .error error => IsFault error) s := by
  induction order generalizing s with
  | nil => exact files_pure .nil
  | cons oid order ih =>
      rw [List.map_cons, readCommits, utf8_bytes]
      show ((readCommit oid >>= fun commit => readCommits (order.map Rust.bytes) >>= fun commits =>
        pure (commit :: commits)).caught : FileM _).Ensures _ _ _ _
      rw [Program.caught_bind]
      apply files_bind (readCommit_ensures hs)
      rintro (error | commit) t hst hcommit
      · exact files_pure hcommit
      · dsimp only
        rw [Program.caught_bind]
        apply files_bind ((ih (hst.sound hs)).frame (fun _ _ _ => .trans) (.refl t))
        rintro (error | commits) u - ⟨htu, hcommits⟩
        · exact files_pure hcommits
        · exact files_pure (.cons (hcommit.grows htu) hcommits)

theorem oids_of_shown (h : List.Forall₂ (Shown t) order commits) :
    commits.map Commit.oid = order := by
  induction h with
  | nil => rfl
  | cons hfirst _ ih => rw [List.map_cons, hfirst.oid_eq, ih]

theorem shown_of_mem (h : List.Forall₂ (Shown t) order commits) :
    ∀ commit ∈ commits, Shown t commit.oid commit := by
  induction h with
  | nil => exact fun commit hmem => absurd hmem List.not_mem_nil
  | cons hfirst _ ih =>
      refine List.forall_mem_cons.mpr ⟨?_, ih⟩
      rw [hfirst.oid_eq]
      exact hfirst

/-- The commits of a log, each of them shown later. -/
theorem log_of_order (hlog : s.IsLog oid limit order) (hst : Grows naming s t)
    (hshown : List.Forall₂ (Shown t) order commits) : Log oid limit commits t := by
  obtain ⟨hfirst, hnodup, hshort, hancestors, hwhole⟩ := hlog
  have hoids := oids_of_shown hshown
  have hlength : commits.length = order.length := by rw [← hoids, List.length_map]
  have hancestor : ∀ c ∈ order, Ancestor s.repo.commits c oid :=
    fun c hc => (History.isAncestor_iff s.repo.grown).mp (hancestors c hc)
  refine ⟨?_, ?_, ?_, shown_of_mem hshown, ?_, ?_⟩
  · rw [hoids]
    exact hfirst
  · rw [hoids]
    exact hnodup
  · rw [hlength]
    exact hshort
  · intro commit hmem
    refine (hancestor commit.oid ?_).mono hst.commits
    rw [← hoids]
    exact List.mem_map_of_mem hmem
  · rw [hoids, hlength]
    refine hwhole.imp id fun hall c hc => ?_
    have hhas := (hancestor oid (List.mem_of_mem_head? hfirst)).has_right
    have hold := hc.of_subset s.repo.grown t.repo.grown hst.commits hhas
    obtain ⟨node, hnode, rfl⟩ := hold.has_left
    exact hall node hnode ((History.isAncestor_iff s.repo.grown).mpr hold)

theorem listCommitsAt_ensures (hs : s.Sound naming) :
    ((listCommitsAt oid limit).caught : FileM _).Ensures (Grows naming) (Grows naming)
      (LogRead oid limit) s := by
  rw [listCommitsAt, Program.caught_bind]
  apply files_bind (Q := fun result t => t.Sound naming ∧ match result with
    | .ok listing => ∃ order, t.IsLog oid limit order ∧ (∀ c ∈ order, isOid c = true) ∧
        listing = printed (order.map Rust.bytes)
    | .error error => IsFault error)
  · apply caught_output
    · intro i t listing hst hlisting
      split at hlisting
      next hlog =>
        cases hlisting
        have ht := hst.sound hs
        refine ⟨ht, i.order, hlog, fun c hc => ht.ids c ?_, rfl⟩
        exact ((History.isAncestor_iff t.repo.grown).mp (hlog.2.2.2.1 c hc)).has_left
      next => cases hlisting
    · exact fun t error hst hfault => ⟨hst.sound hs, hfault⟩
  · rintro (error | listing) t hst ⟨ht, hlisting⟩
    · exact files_pure hlisting
    · obtain ⟨order, hlog, hoids, rfl⟩ := hlisting
      have hlines : lines (printed (order.map Rust.bytes)) = order.map Rust.bytes := by
        apply lines_printed
        intro record hmem
        obtain ⟨c, hc, rfl⟩ := List.mem_map.mp hmem
        obtain ⟨hne, -⟩ := blank_notMem_of_isOid (hoids c hc)
        refine ⟨fun hnil => hne ?_, notMem_bytes (c := '\n') (fun hmem => ?_) (by decide) rfl⟩
        · have hempty : c = "" := Rust.bytes_injective hnil
          rw [hempty]
          rfl
        · exact absurd (visible_of_isOid (hoids c hc) _ hmem).1 (by decide)
      dsimp only
      rw [hlines]
      refine ((readCommits_ensures ht).frame (fun _ _ _ => .trans) (.refl t)).mono ?_
      rintro (error | commits) u ⟨htu, hcommits⟩
      · exact hcommits
      · exact log_of_order hlog htu hcommits

end

end Cresix.Git
