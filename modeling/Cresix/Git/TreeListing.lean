import Cresix.Git.Conflicts
import Cresix.Library.Checks
import Cresix.Library.Search
import Cresix.Rust.Lines

/-!
# Listings of a tree

`git ls-tree -z -l` writes an entry as four columns, a tab, the path as it is
and a NUL.  `parse_tree_entries` reads the columns as words and takes the first
tab for the one before the path, which may hold tabs, newlines and blanks of
its own.  Reading inverts writing (`parse_listing`).
-/

namespace Cresix.Git

/-- `EntryKind`. -/
inductive EntryKind where
  | blob
  | tree
  | commit
deriving DecidableEq, Repr

/-- `TreeEntry`. -/
structure TreeEntry where
  path : String
  oid : String
  kind : EntryKind
  size : Option Nat
deriving DecidableEq, Repr

/-! ## Reading -/

/-- The type of an entry, in the words of Git. -/
def EntryKind.parse (field : String) : Except GitError EntryKind :=
  if field = "blob" then .ok .blob
  else if field = "tree" then .ok .tree
  else if field = "commit" then .ok .commit
  else .error (.invalidOutput "unknown tree entry type")

/-- The size of an entry; only blobs have one. -/
def parseSize (field : List Char) : Except GitError (Option Nat) :=
  if field = ['-'] then .ok none
  else
    match Rust.parseU64 field with
    | some size => .ok (some size)
    | none => .error (.invalidOutput "invalid tree size")

/-- `parse_tree_record`. -/
def parseTreeRecord (record : List UInt8) : Except GitError TreeEntry :=
  match record.idxOf? 0x09 with
  | none => .error (.invalidOutput "tree record lacks path")
  | some tab => do
      let header ← utf8 (record.take tab)
      let path ← utf8 (record.drop (tab + 1))
      match Rust.splitWhitespace header.toList with
      | [_, kind, oid, size] => do
          let kind ← EntryKind.parse (String.ofList kind)
          let size ← parseSize size
          return ⟨path, String.ofList oid, kind, size⟩
      | _ => .error (.invalidOutput "malformed tree record")

/-- `parse_tree_entries`. -/
def parseTreeEntries (bytes : List UInt8) : Except GitError (List TreeEntry) :=
  ((bytes.splitOn 0).filter fun record => !record.isEmpty).mapM parseTreeRecord

/-- `parse_exact_tree_entry`. -/
def parseExactTreeEntry (bytes : List UInt8) (expectedPath : String) :
    Except GitError TreeEntry := do
  match ← parseTreeEntries bytes with
  | [] => .error (.notFound expectedPath)
  | [entry] =>
      if entry.path = expectedPath then return entry
      else .error (.invalidOutput "ambiguous tree path")
  | _ => .error (.invalidOutput "ambiguous tree path")

/-! ## Writing -/

/-- The name Git has for the type of an entry. -/
def EntryKind.name : EntryKind → String
  | .blob => "blob"
  | .tree => "tree"
  | .commit => "commit"

/-- An entry of a tree as Git knows it. -/
structure Listed extends TreeEntry where
  mode : Nat
  path_ne : path ≠ ""
  nul_notMem : '\x00' ∉ path.toList
  isOid_oid : isOid oid = true
  size_le : ∀ n ∈ size, n ≤ Rust.u64Max

/-- A text with blanks before it, for a column that is so wide. -/
def padded (width : Nat) (text : List Char) : List Char :=
  List.replicate (width - text.length) ' ' ++ text

namespace Listed

/-- The mode in at least six octal digits. -/
def modeText (entry : Listed) : List Char :=
  let digits := Nat.toDigits 8 entry.mode
  List.replicate (6 - digits.length) '0' ++ digits

def sizeText (entry : Listed) : List Char :=
  match entry.size with
  | some size => size.repr.toList
  | none => ['-']

/-- The columns before the tab. -/
def header (entry : Listed) : List Char :=
  entry.modeText ++ ' ' :: (entry.kind.name.toList ++ ' ' :: (entry.oid.toList ++ ' ' ::
    padded 7 entry.sizeText))

def record (entry : Listed) : List UInt8 :=
  Rust.bytes (String.ofList entry.header) ++ 0x09 :: Rust.bytes entry.path

end Listed

/-- `git ls-tree -z -l`. -/
def treeListing (entries : List Listed) : List UInt8 := listing (entries.map Listed.record)

/-! ## The columns -/

section

variable {entry : Listed} {c : Char}

/-- A column has no blanks and nothing that Git puts between columns and records. -/
def IsColumn (text : List Char) : Prop := text ≠ [] ∧ ∀ c ∈ text, 0x20 < c.toNat ∧ c.toNat < 0x7f

theorem not_isWhitespace_of_visible (h : 0x20 < c.toNat ∧ c.toNat < 0x7f) :
    Rust.isWhitespace c = false := by
  have hval : c.val.toNat = c.toNat := rfl
  simp only [Rust.isWhitespace, UInt32.le_iff_toNat_le, Bool.or_eq_false_iff,
    Bool.and_eq_false_imp, decide_eq_true_eq, decide_eq_false_iff_not, beq_eq_false_iff_ne, ne_eq,
    ← UInt32.toNat_inj, hval]
  simp only [UInt32.reduceToNat]
  omega

theorem visible_of_isDigit (h : c.isDigit = true) : 0x20 < c.toNat ∧ c.toNat < 0x7f := by
  have hrange : 48 ≤ c.toNat ∧ c.toNat ≤ 57 := by
    simpa [Char.isDigit, UInt32.le_iff_toNat_le] using h
  omega

theorem isColumn_mode (entry : Listed) : IsColumn entry.modeText := by
  refine ⟨?_, ?_⟩
  · intro hempty
    exact Nat.toDigits_ne_nil (List.append_eq_nil_iff.mp hempty).2
  · intro c hmem
    rcases List.mem_append.mp hmem with hzero | hdigit
    · rw [List.eq_of_mem_replicate hzero]
      decide
    · exact visible_of_isDigit (Nat.isDigit_of_mem_toDigits (by decide) (by decide) hdigit)

theorem isColumn_kind (kind : EntryKind) : IsColumn kind.name.toList := by
  have hname : kind.name.toList ≠ [] ∧
      kind.name.toList.all (fun c => decide (0x20 < c.toNat ∧ c.toNat < 0x7f)) = true := by
    cases kind with
    | blob => decide
    | tree => decide
    | commit => decide
  exact ⟨hname.1, fun c hmem => of_decide_eq_true (List.all_eq_true.mp hname.2 c hmem)⟩

theorem isColumn_oid (entry : Listed) : IsColumn entry.oid.toList := by
  refine ⟨?_, fun c hmem => ?_⟩
  · intro hempty
    have hoid := entry.isOid_oid
    rw [String.toList_eq_nil_iff.mp hempty] at hoid
    exact absurd hoid (by decide)
  · have hrange := visible_of_isOid entry.isOid_oid c hmem
    omega

theorem isColumn_size (entry : Listed) : IsColumn entry.sizeText := by
  rw [Listed.sizeText]
  split
  next size =>
    rw [Nat.toList_repr]
    refine ⟨Nat.toDigits_ne_nil, fun c hmem => visible_of_isDigit ?_⟩
    exact Nat.isDigit_of_mem_toDigits (by decide) (by decide) hmem
  next =>
    refine ⟨List.cons_ne_nil _ _, fun c hmem => ?_⟩
    rw [List.mem_singleton.mp hmem]
    decide

theorem splitWhitespace_padded {text : List Char} (h : IsColumn text) (width : Nat) :
    Rust.splitWhitespace (padded width text) = [text] := by
  rw [padded]
  induction width - text.length with
  | zero =>
      exact Rust.splitWhitespace_last h.1 fun c hmem => not_isWhitespace_of_visible (h.2 c hmem)
  | succ count ih =>
      rw [List.replicate_succ, List.cons_append, Rust.splitWhitespace_blank (by decide), ih]

theorem splitWhitespace_header (entry : Listed) :
    Rust.splitWhitespace entry.header =
      [entry.modeText, entry.kind.name.toList, entry.oid.toList, entry.sizeText] := by
  have hword : ∀ {text : List Char}, IsColumn text → ∀ cs,
      Rust.splitWhitespace (text ++ ' ' :: cs) = text :: Rust.splitWhitespace cs := by
    intro text h cs
    exact Rust.splitWhitespace_word h.1
      (fun c hmem => not_isWhitespace_of_visible (h.2 c hmem)) (by decide) cs
  rw [Listed.header, hword (isColumn_mode entry), hword (isColumn_kind entry.kind),
    hword (isColumn_oid entry), splitWhitespace_padded (isColumn_size entry)]

/-- The columns hold neither a tab nor a NUL. -/
theorem header_char (h : c ∈ entry.header) : 0x20 ≤ c.toNat ∧ c.toNat < 0x7f := by
  have hblank : 0x20 ≤ ' '.toNat ∧ ' '.toNat < 0x7f := by decide
  have hcolumn : ∀ {text : List Char}, IsColumn text → c ∈ text → 0x20 ≤ c.toNat ∧ c.toNat < 0x7f :=
    fun htext hmem => ⟨le_of_lt (htext.2 c hmem).1, (htext.2 c hmem).2⟩
  simp only [Listed.header, padded, List.mem_append, List.mem_cons] at h
  rcases h with h | rfl | h | rfl | h | rfl | h | h
  · exact hcolumn (isColumn_mode entry) h
  · exact hblank
  · exact hcolumn (isColumn_kind entry.kind) h
  · exact hblank
  · exact hcolumn (isColumn_oid entry) h
  · exact hblank
  · exact List.eq_of_mem_replicate h ▸ hblank
  · exact hcolumn (isColumn_size entry) h

/-! ## The records -/

/-- A byte of the record before the path is no tab. -/
theorem tab_notMem_header (entry : Listed) : 0x09 ∉ Rust.bytes (String.ofList entry.header) := by
  intro hmem
  obtain ⟨c, hc, htoNat⟩ := Rust.exists_of_mem_bytes hmem (by decide)
  rw [String.toList_ofList] at hc
  have hchar : c.toNat = 9 := htoNat
  exact absurd (header_char hc).1 (by omega)

theorem nul_notMem_record (entry : Listed) : 0 ∉ entry.record := by
  intro hmem
  rcases List.mem_append.mp hmem with hheader | htail
  · obtain ⟨c, hc, htoNat⟩ := Rust.exists_of_mem_bytes hheader (by decide)
    rw [String.toList_ofList] at hc
    have hchar : c.toNat = 0 := htoNat
    exact absurd (header_char hc).1 (by omega)
  · rcases List.mem_cons.mp htail with htab | hpath
    · exact absurd htab (by decide)
    · obtain ⟨c, hc, htoNat⟩ := Rust.exists_of_mem_bytes hpath (by decide)
      have hchar : c = '\x00' := Char.toNat_inj.mp htoNat
      exact entry.nul_notMem (hchar ▸ hc)

theorem record_ne_nil (entry : Listed) : entry.record ≠ [] :=
  List.append_ne_nil_of_right_ne_nil _ (List.cons_ne_nil _ _)

theorem parse_kind (kind : EntryKind) : EntryKind.parse kind.name = .ok kind := by
  cases kind with
  | blob => rfl
  | tree => rfl
  | commit => rfl

theorem parse_size (entry : Listed) : parseSize entry.sizeText = .ok entry.size := by
  rw [Listed.sizeText]
  cases hsize : entry.size with
  | none => rfl
  | some size =>
      dsimp only
      have hdash : size.repr.toList ≠ ['-'] := by
        intro heq
        have hmem : '-' ∈ Nat.toDigits 10 size := by
          rw [← Nat.toList_repr, heq]
          exact List.mem_singleton_self _
        exact absurd (Nat.isDigit_of_mem_toDigits (by decide) (by decide) hmem) (by decide)
      rw [parseSize, if_neg hdash, Rust.parseU64_repr (entry.size_le size hsize)]

/-- A record is read as its entry. -/
theorem parse_record (entry : Listed) : parseTreeRecord entry.record = .ok entry.toTreeEntry := by
  have htab : entry.record.idxOf? 0x09 = some (Rust.bytes (String.ofList entry.header)).length :=
    Search.idxOf?_append_cons (tab_notMem_header entry) _
  have htake : entry.record.take (Rust.bytes (String.ofList entry.header)).length =
      Rust.bytes (String.ofList entry.header) := List.take_left
  have hdrop : entry.record.drop ((Rust.bytes (String.ofList entry.header)).length + 1) =
      Rust.bytes entry.path := by
    rw [Listed.record, ← List.drop_drop, List.drop_left]
    rfl
  have hutf8 : ∀ text, utf8 (Rust.bytes text) = .ok text := by
    intro text
    rw [utf8, Rust.fromUtf8_bytes]
  simp only [parseTreeRecord, htab, htake, hdrop, hutf8, Except.bind, bind, String.toList_ofList,
    splitWhitespace_header, parse_kind, parse_size, String.ofList_toList]
  rfl

theorem parseTreeEntries_listing (entries : List Listed) :
    parseTreeEntries (treeListing entries) = .ok (entries.map Listed.toTreeEntry) := by
  have hrecords : ∀ record ∈ entries.map Listed.record, 0 ∉ record := by
    intro record hmem
    obtain ⟨entry, -, rfl⟩ := List.mem_map.mp hmem
    exact nul_notMem_record entry
  have hfilter : ((treeListing entries).splitOn 0).filter (fun record => !record.isEmpty) =
      entries.map Listed.record := by
    rw [treeListing, splitOn_listing hrecords, List.filter_append, List.filter_eq_self.mpr]
    · exact List.append_nil _
    · intro record hmem
      obtain ⟨entry, -, rfl⟩ := List.mem_map.mp hmem
      simpa using record_ne_nil entry
  rw [parseTreeEntries, hfilter, Checks.mapM_eq_ok, List.forall₂_map_left_iff,
    List.forall₂_map_right_iff, List.forall₂_same]
  exact fun entry _ => parse_record entry

/-- An entry is found when it is all that is listed and has the path. -/
theorem parseExactTreeEntry_eq_ok {bytes : List UInt8} {path : String} {found : TreeEntry} :
    parseExactTreeEntry bytes path = .ok found ↔
      parseTreeEntries bytes = .ok [found] ∧ found.path = path := by
  rw [parseExactTreeEntry, Checks.bind_eq_ok]
  constructor
  · rintro ⟨entries, hentries, h⟩
    split at h
    next => cases h
    next entry =>
      split at h
      next hpath =>
        cases h
        exact ⟨hentries, hpath⟩
      next => cases h
    next => cases h
  · rintro ⟨hentries, rfl⟩
    exact ⟨[found], hentries, if_pos rfl⟩

/-- A listing is read as the entries it was written from.  An entry is found
in an output exactly if it is all that the output lists and has the path that
was asked for. -/
theorem parse_listing :
    (∀ entries : List Listed,
      parseTreeEntries (treeListing entries) = .ok (entries.map Listed.toTreeEntry)) ∧
    (∀ (bytes : List UInt8) (path : String) (found : TreeEntry),
      parseExactTreeEntry bytes path = .ok found ↔
        parseTreeEntries bytes = .ok [found] ∧ Rust.bytes found.path = Rust.bytes path) ∧
    ∀ (entries : List Listed) (path : String) (found : TreeEntry),
      parseExactTreeEntry (treeListing entries) path = .ok found ↔
        entries.map Listed.toTreeEntry = [found] ∧ Rust.bytes found.path = Rust.bytes path := by
  have hexact : ∀ (bytes : List UInt8) (path : String) (found : TreeEntry),
      parseExactTreeEntry bytes path = .ok found ↔
        parseTreeEntries bytes = .ok [found] ∧ Rust.bytes found.path = Rust.bytes path := by
    intro bytes path found
    rw [parseExactTreeEntry_eq_ok]
    exact and_congr_right fun _ => ⟨congrArg Rust.bytes, Rust.bytes_injective⟩
  refine ⟨parseTreeEntries_listing, hexact, ?_⟩
  intro entries path found
  rw [hexact, parseTreeEntries_listing, Except.ok.injEq]

end

end Cresix.Git
