import Cresix.Git.Repository
import Cresix.Library.Checks
import Cresix.Rust.Lines

/-!
# The tree of a commit

`commit_changes` reads the tree of the parent into an index, puts each change
into it and writes the index as the new tree.  An upsert reaches Git as an
argument, whose path is taken as it is, and a delete as a line of input, whose
path Git unquotes if it begins with a quotation mark.  `validate_repo_path`
accepts such paths.  The file with this name is then not deleted, and another
one may be (`exact_iff`).
-/

namespace Cresix.Git

/-- A file of a tree. -/
structure Entry where
  mode : Nat
  oid : String
deriving DecidableEq, Repr

/-- The files of a tree, or of the index, by their paths. -/
abbrev Index := Finmap fun _ : String => Entry

/-- What `git hash-object` makes of a content. -/
structure Objects where
  oid : List UInt8 → String
  isOid_oid : ∀ content, isOid (oid content) = true

/-- The mode of a regular file. -/
def regular : Nat := 0o100644

/-! ## What Git reads -/

/-- One path is a directory on the way to the other. -/
def IsAbove (directory path : String) : Prop := directory.toList ++ ['/'] <+: path.toList

instance (directory path : String) : Decidable (IsAbove directory path) := by
  unfold IsAbove
  infer_instance

/-- A path cannot be a file and a directory. -/
def Clashes (index : Index) (path : String) : Prop :=
  ∃ other ∈ index.keys, IsAbove other path ∨ IsAbove path other

instance (index : Index) (path : String) : Decidable (Clashes index path) := by
  unfold Clashes
  infer_instance

/-- `git update-index --add --cacheinfo`: the path is what follows the second comma. -/
def addCacheinfo (index : Index) (argument : List Char) : Option Index := do
  let (mode, rest) ← Rust.splitOnce ',' argument
  let (oid, path) ← Rust.splitOnce ',' rest
  if Clashes index (String.ofList path) then none
  else some (index.insert (String.ofList path) ⟨Nat.ofDigitChars 8 mode 0, String.ofList oid⟩)

/-- What is between quotation marks, of which the first is read.  The escapes
begin with a backslash, which no path has here. -/
def unquote (quoted : List Char) : Option (List Char) :=
  if '\x22' ∈ quoted then some (quoted.takeWhile (· ≠ '\x22')) else none

/-- A path as Git reads it in a line. -/
def readPath (path : List Char) : Option String :=
  match path with
  | '\x22' :: quoted => (unquote quoted).map String.ofList
  | _ => some (String.ofList path)

/-- The lines of an input, each with its newline. -/
def inputLines (input : List Char) : List (List Char) := (input.splitOn '\n').dropLast

/-- `git update-index --index-info` on lines with the mode zero: the path behind
the tab is taken out. -/
def indexInfo (index : Index) (input : List Char) : Option Index :=
  (inputLines input).foldlM
    (fun index line => do
      let (_, path) ← Rust.splitOnce '\t' line
      (readPath path).map index.erase)
    index

/-! ## What the code writes -/

/-- The argument for an upsert. -/
def cacheinfo (oid path : String) : String := "100644," ++ oid ++ "," ++ path

/-- The line for a delete. -/
def Repository.removal (r : Repository) (path : String) : String :=
  "0 " ++ r.zeroOid ++ "\t" ++ path ++ "\n"

/-- What the subprocesses for one change make of the index, unless Git refuses. -/
def Repository.putChange (r : Repository) (objects : Objects) (index : Index) :
    FileChange → Option Index
  | .upsert path content => addCacheinfo index (cacheinfo (objects.oid content) path).toList
  | .delete path => indexInfo index (r.removal path).toList

/-- The tree that is written after the changes to the tree of the parent. -/
def Repository.newTree (r : Repository) (objects : Objects) (parent : Index)
    (changes : List FileChange) : Option Index :=
  changes.foldlM (r.putChange objects) parent

/-! ## What is meant -/

/-- The path of a change. -/
def FileChange.path : FileChange → String
  | upsert path _ => path
  | delete path => path

/-- The file that is to be there after a change. -/
def FileChange.file (objects : Objects) : FileChange → Option Entry
  | upsert _ content => some ⟨regular, objects.oid content⟩
  | delete _ => none

/-- The tree is the one of the parent but for the named paths. -/
def Exact (objects : Objects) (parent : Index) (changes : List FileChange) (tree : Index) : Prop :=
  (∀ change ∈ changes, tree.lookup change.path = change.file objects) ∧
    ∀ path, (∀ change ∈ changes, change.path ≠ path) → tree.lookup path = parent.lookup path

/-- A delete that Git misreads does no harm: the file is not there anyway, and
the other one is deleted as well, or written later, or not there either. -/
structure Harmless (parent : Index) (changes : List FileChange) (path other : String)
    (after : List FileChange) : Prop where
  absent : parent.lookup path = none
  other : .delete other ∈ changes ∨ (∃ content, .upsert other content ∈ after) ∨
    (∀ change ∈ changes, change.path ≠ other) ∧ parent.lookup other = none

/-- Every delete that Git misreads does no harm. -/
def Spared (parent : Index) (changes : List FileChange) : Prop :=
  ∀ before path after other, changes = before ++ .delete path :: after →
    readPath path.toList = some other → other ≠ path → Harmless parent changes path other after

section

variable {r : Repository} {objects : Objects} {index index' parent tree : Index}
  {change : FileChange} {changes : List FileChange} {path other oid : String}

/-! ## One change -/

/-- The path Git takes the path of a delete for. -/
def taken (path : String) : String := (readPath path.toList).getD path

/-- What Git makes of a change: the path it is about, and the file there. -/
def FileChange.effect (objects : Objects) : FileChange → String × Option Entry
  | upsert path content => (path, some ⟨regular, objects.oid content⟩)
  | delete path => (taken path, none)

/-- A path is read as it is, or what is read has no quotation mark left. -/
theorem readPath_cases (h : readPath path.toList = some other) :
    other = path ∨ path.toList.head? = some '\x22' ∧ '\x22' ∉ other.toList := by
  unfold readPath at h
  split at h
  next quoted hpath =>
    obtain ⟨text, htext, rfl⟩ := Option.map_eq_some_iff.mp h
    rw [unquote] at htext
    split at htext
    next =>
      cases htext
      refine .inr ⟨by rw [hpath]; rfl, ?_⟩
      rw [String.toList_ofList]
      intro hmem
      exact absurd (List.mem_takeWhile_imp hmem) (by decide)
    next => cases htext
  next =>
    cases h
    exact .inl String.ofList_toList

/-- Only one path begins with a quotation mark and is taken for a path. -/
theorem taken_ne {path' : String} (hother : readPath path.toList = some other) (hne : other ≠ path)
    (hpath' : path' ≠ path) (hread : (readPath path'.toList).isSome = true) :
    taken path' ≠ path := by
  obtain ⟨other', hother'⟩ := Option.isSome_iff_exists.mp hread
  rw [taken, hother', Option.getD_some]
  rcases readPath_cases hother' with rfl | ⟨-, hquote⟩
  · exact hpath'
  · rintro rfl
    rcases readPath_cases hother with heq | ⟨hhead, -⟩
    · exact hne heq
    · exact hquote (List.mem_of_head? hhead)

theorem addCacheinfo_cacheinfo (h : isOid oid = true)
    (hput : addCacheinfo index (cacheinfo oid path).toList = some index') :
    index' = index.insert path ⟨regular, oid⟩ := by
  have hcomma : ',' ∉ oid.toList := by
    intro hmem
    exact absurd (visible_of_isOid h _ hmem).1 (by decide)
  have htext : (cacheinfo oid path).toList =
      "100644".toList ++ ',' :: (oid.toList ++ ',' :: path.toList) := by
    have hfront : "100644,".toList = "100644".toList ++ [','] := by decide
    have hsep : ",".toList = [','] := by decide
    simp only [cacheinfo, String.toList_append, hfront, hsep, List.append_assoc, List.cons_append,
      List.nil_append]
  rw [addCacheinfo, htext, Rust.splitOnce_append (by decide)] at hput
  simp only [Option.bind_eq_bind, Option.bind_some, Rust.splitOnce_append hcomma,
    String.ofList_toList] at hput
  split at hput
  next => cases hput
  next =>
    cases hput
    rfl

theorem indexInfo_removal (h : '\n' ∉ path.toList) :
    indexInfo index (r.removal path).toList = (readPath path.toList).map index.erase := by
  have hzero : ∀ c ∈ ("0 " ++ r.zeroOid).toList, c = '0' ∨ c = ' ' := by
    intro c hmem
    rw [String.toList_append] at hmem
    rcases List.mem_append.mp hmem with hmem | hmem
    · have hfront : "0 ".toList = ['0', ' '] := by decide
      rw [hfront] at hmem
      simpa using hmem
    · rw [Repository.zeroOid, String.toList_ofList] at hmem
      exact .inl (List.eq_of_mem_replicate hmem)
  have hcolumns : ∀ c, c ≠ '0' → c ≠ ' ' → c ∉ ("0 " ++ r.zeroOid).toList :=
    fun c hne hne' hmem => (hzero c hmem).elim hne hne'
  have htext : (r.removal path).toList =
      (("0 " ++ r.zeroOid).toList ++ '\t' :: path.toList) ++ ['\n'] := by
    have htab : "\t".toList = ['\t'] := by decide
    have hnewline : "\n".toList = ['\n'] := by decide
    simp only [Repository.removal, String.toList_append, htab, hnewline, List.append_assoc,
      List.cons_append, List.nil_append]
  have hline : '\n' ∉ ("0 " ++ r.zeroOid).toList ++ '\t' :: path.toList := by
    rw [List.mem_append, List.mem_cons, not_or, not_or]
    exact ⟨hcolumns _ (by decide) (by decide), by decide, h⟩
  have hlines : inputLines (r.removal path).toList =
      [("0 " ++ r.zeroOid).toList ++ '\t' :: path.toList] := by
    rw [inputLines, htext, List.splitOn_append_cons_self_of_not_mem hline]
    rfl
  simp only [indexInfo, hlines, List.foldlM_cons, List.foldlM_nil, Option.bind_eq_bind,
    Rust.splitOnce_append (hcolumns '\t' (by decide) (by decide)), Option.bind_some]
  cases readPath path.toList with
  | none => rfl
  | some other => rfl

theorem putChange_eq (h : '\n' ∉ change.path.toList)
    (hput : r.putChange objects index change = some index') :
    index' = index.put (change.effect objects) ∧
      ∀ path, change = .delete path → (readPath path.toList).isSome = true := by
  cases change with
  | upsert path content =>
      exact ⟨addCacheinfo_cacheinfo (objects.isOid_oid content) hput, fun _ heq => nomatch heq⟩
  | delete path =>
      have hremoval : (readPath path.toList).map index.erase = some index' :=
        (indexInfo_removal h).symm.trans hput
      obtain ⟨other, hother, rfl⟩ := Option.map_eq_some_iff.mp hremoval
      refine ⟨?_, ?_⟩
      · rw [FileChange.effect, taken, hother]
        rfl
      · intro path' heq
        cases heq
        rw [hother]
        rfl

/-- The new tree is what the updates make of the tree of the parent. -/
theorem newTree_eq (h : ∀ change ∈ changes, '\n' ∉ change.path.toList)
    (hput : r.newTree objects parent changes = some tree) :
    tree = (changes.map (FileChange.effect objects)).foldl Finmap.put parent ∧
      ∀ path, .delete path ∈ changes → (readPath path.toList).isSome = true := by
  induction changes generalizing parent with
  | nil =>
      cases hput
      exact ⟨rfl, fun path hmem => absurd hmem List.not_mem_nil⟩
  | cons change changes ih =>
      obtain ⟨hfirst, hrest⟩ := List.forall_mem_cons.mp h
      obtain ⟨index, hindex, hput⟩ := Option.bind_eq_some_iff.mp hput
      obtain ⟨rfl, hread⟩ := putChange_eq hfirst hindex
      obtain ⟨htree, hreads⟩ := ih hrest hput
      refine ⟨htree, fun path hmem => ?_⟩
      rcases List.mem_cons.mp hmem with heq | hmem
      · exact hread path heq.symm
      · exact hreads path hmem

/-! ## All changes -/

/-- What the validation knows of the paths. -/
theorem newline_notMem_of_validateRepoPath (h : validateRepoPath path = .ok ()) :
    '\n' ∉ path.toList := by
  rw [validateRepoPath] at h
  split at h
  next => cases h
  next hcheck =>
    simp only [Bool.or_eq_true, not_or] at hcheck
    obtain ⟨⟨-, hcontrol⟩, -⟩ := hcheck
    intro hmem
    exact hcontrol (List.any_eq_true.mpr ⟨_, Rust.mem_bytes_of_mem hmem (by decide), by decide⟩)

theorem of_validateEach {limits : Limits} {paths : List String} {total total' : Nat}
    (h : validateEach limits changes paths total = .ok total') :
    (∀ change ∈ changes, '\n' ∉ change.path.toList) ∧ (changes.map FileChange.path).Nodup ∧
      ∀ change ∈ changes, change.path ∉ paths := by
  induction changes generalizing paths total with
  | nil =>
      exact ⟨fun change hmem => absurd hmem List.not_mem_nil, .nil,
        fun change hmem => absurd hmem List.not_mem_nil⟩
  | cons change changes ih =>
      obtain ⟨size, hsize⟩ : ∃ size, change.pathAndSize = (change.path, size) := by
        cases change with
        | upsert path content => exact ⟨content.length, rfl⟩
        | delete path => exact ⟨0, rfl⟩
      rw [validateEach, hsize] at h
      obtain ⟨hvalid, h⟩ := Checks.check_bind_eq_ok.mp h
      dsimp only at h
      by_cases hnew : change.path ∈ paths
      · rw [if_pos hnew] at h
        cases h
      · rw [if_neg hnew] at h
        split at h
        next => cases h
        next =>
          split at h
          next => cases h
          next =>
            obtain ⟨hlines, hnodup, hfresh⟩ := ih h
            refine ⟨List.forall_mem_cons.mpr ⟨newline_notMem_of_validateRepoPath hvalid, hlines⟩,
              List.nodup_cons.mpr ⟨?_, hnodup⟩, List.forall_mem_cons.mpr ⟨hnew, ?_⟩⟩
            · intro hmem
              obtain ⟨other, hother, heq⟩ := List.mem_map.mp hmem
              exact hfresh other hother (heq ▸ List.mem_cons_self)
            · exact fun other hother hmem => hfresh other hother (List.mem_cons_of_mem _ hmem)

theorem of_validateChanges {limits : Limits} (h : validateChanges limits changes = .ok ()) :
    (∀ change ∈ changes, '\n' ∉ change.path.toList) ∧ (changes.map FileChange.path).Nodup := by
  rw [validateChanges] at h
  split at h
  next => cases h
  next =>
    obtain ⟨total, htotal, -⟩ := Checks.bind_eq_ok.mp h
    obtain ⟨hlines, hnodup, -⟩ := of_validateEach htotal
    exact ⟨hlines, hnodup⟩

/-- A path is named by one change only. -/
theorem eq_of_path (hnodup : (changes.map FileChange.path).Nodup) {c c' : FileChange}
    (hc : c ∈ changes) (hc' : c' ∈ changes) (h : c.path = c'.path) : c = c' :=
  List.inj_on_of_nodup_map hnodup hc hc' h

/-- The changes have a last one about a path, or none. -/
theorem last_effect (objects : Objects) (changes : List FileChange) (path : String)
    (parent : Index) :
    (∀ c ∈ changes, (c.effect objects).1 ≠ path) ∧
        ((changes.map (FileChange.effect objects)).foldl Finmap.put parent).lookup path =
          parent.lookup path ∨
      ∃ before c after, changes = before ++ c :: after ∧ (c.effect objects).1 = path ∧
        (∀ c ∈ after, (c.effect objects).1 ≠ path) ∧
        ((changes.map (FileChange.effect objects)).foldl Finmap.put parent).lookup path =
          (c.effect objects).2 := by
  rcases Finmap.last_cases (changes.map (FileChange.effect objects)) path with
    hnone | ⟨before, u, after, hsplit, hu, hafter⟩
  · exact .inl ⟨fun c hmem => hnone _ (List.mem_map_of_mem hmem),
      Finmap.lookup_putAll_of_forall_ne hnone⟩
  · right
    obtain ⟨before', rest, rfl, rfl, hrest⟩ := List.map_eq_append_iff.mp hsplit
    obtain ⟨c, after', rfl, rfl, rfl⟩ := List.map_eq_cons_iff.mp hrest
    refine ⟨before', c, after', rfl, hu, fun c hmem => hafter _ (List.mem_map_of_mem hmem), ?_⟩
    rw [hsplit]
    exact Finmap.lookup_putAll_of_last hu hafter

/-- A delete is about the path it names, or Git reads another. -/
theorem taken_of_readPath (h : readPath path.toList = some other) : taken path = other := by
  rw [taken, h, Option.getD_some]

theorem spared_of_exact (hnodup : (changes.map FileChange.path).Nodup)
    (hreads : ∀ path, .delete path ∈ changes → (readPath path.toList).isSome = true)
    (h : Exact objects parent changes
      ((changes.map (FileChange.effect objects)).foldl Finmap.put parent)) :
    Spared parent changes := by
  intro before path after other hchanges hother hne
  have hmem : .delete path ∈ changes := by
    rw [hchanges]
    exact List.mem_append_right _ List.mem_cons_self
  refine ⟨?_, ?_⟩
  · -- No other change is about the path.
    have habsent : ∀ c ∈ changes, (c.effect objects).1 ≠ path := by
      intro c hc heq
      cases c with
      | upsert path' content =>
          have hsame := eq_of_path hnodup hc hmem heq
          cases hsame
      | delete path' =>
          by_cases hpath : path' = path
          · exact hne ((taken_of_readPath hother).symm.trans (hpath ▸ heq))
          · exact taken_ne hother hne hpath (hreads path' hc) heq
    have hlookup := h.1 _ hmem
    rcases last_effect objects changes path parent with ⟨-, hparent⟩ | ⟨_, c, _, rfl, heq, -, -⟩
    · exact hparent.symm.trans hlookup
    · exact absurd heq (habsent c (List.mem_append_right _ List.mem_cons_self))
  · have htaken := taken_of_readPath hother
    by_cases hnamed : ∃ c ∈ changes, c.path = other
    · obtain ⟨c, hc, rfl⟩ := hnamed
      cases c with
      | delete other => exact .inl hc
      | upsert other content =>
          -- What is written there is written after the delete.
          have hlookup := h.1 _ hc
          rw [hchanges, List.map_append, List.map_cons, List.foldl_append, List.foldl_cons]
            at hlookup
          rcases last_effect objects after other
              (((before.map (FileChange.effect objects)).foldl Finmap.put parent).put
                ((FileChange.delete path).effect objects)) with
            ⟨-, hparent⟩ | ⟨_, c, _, rfl, heq, -, hlast⟩
          · have heffect : other = ((FileChange.delete path).effect objects).1 := htaken.symm
            rw [Finmap.lookup_put, if_pos heffect] at hparent
            cases hparent.symm.trans hlookup
          · cases c with
            | delete path' => cases hlast.symm.trans hlookup
            | upsert path' content' =>
                obtain rfl : path' = other := heq
                exact .inr (.inl ⟨content', List.mem_append_right _ List.mem_cons_self⟩)
    · have hunnamed : ∀ c ∈ changes, c.path ≠ other := fun c hc heq => hnamed ⟨c, hc, heq⟩
      refine .inr (.inr ⟨hunnamed, ?_⟩)
      rw [← h.2 other hunnamed]
      rcases last_effect objects changes other parent with
        ⟨hnone, -⟩ | ⟨_, c, _, rfl, heq, -, hlast⟩
      · exact absurd htaken (hnone _ hmem)
      · cases c with
        | delete path' => exact hlast
        | upsert path' content =>
            exact absurd heq (hunnamed _ (List.mem_append_right _ List.mem_cons_self))

theorem exact_of_spared (hnodup : (changes.map FileChange.path).Nodup)
    (hreads : ∀ path, .delete path ∈ changes → (readPath path.toList).isSome = true)
    (h : Spared parent changes) :
    Exact objects parent changes
      ((changes.map (FileChange.effect objects)).foldl Finmap.put parent) := by
  have hread : ∀ path, .delete path ∈ changes → readPath path.toList = some (taken path) := by
    intro path hmem
    obtain ⟨other, hother⟩ := Option.isSome_iff_exists.mp (hreads path hmem)
    rw [hother, taken_of_readPath hother]
  refine ⟨?_, ?_⟩
  · intro change hchange
    rcases last_effect objects changes change.path parent with
      ⟨hnone, hparent⟩ | ⟨before, c, after, hsplit, heq, hafter, hlast⟩
    · -- Only a delete that is misread is not about its path.
      cases change with
      | upsert path content => exact absurd rfl (hnone _ hchange)
      | delete path =>
          obtain ⟨before, after, hsplit⟩ := List.append_of_mem hchange
          exact hparent.trans
            (h before path after _ hsplit (hread path hchange) (hnone _ hchange)).absent
    · have hc : c ∈ changes := hsplit ▸ List.mem_append_right _ List.mem_cons_self
      cases c with
      | upsert path content =>
          obtain rfl := eq_of_path hnodup hc hchange heq
          exact hlast
      | delete path =>
          by_cases hsame : taken path = path
          · obtain rfl := eq_of_path hnodup hc hchange (hsame.symm.trans heq)
            exact hlast
          · have heq : taken path = change.path := heq
            rcases (h before path after _ hsplit (hread path hc) hsame).other with
              hdelete | ⟨content, hupsert⟩ | ⟨hunnamed, -⟩
            · obtain rfl := eq_of_path hnodup hdelete hchange heq
              exact hlast
            · exact absurd heq (hafter _ hupsert)
            · exact absurd heq.symm (hunnamed change hchange)
  · intro path hunnamed
    rcases last_effect objects changes path parent with
      ⟨-, hparent⟩ | ⟨before, c, after, hsplit, heq, hafter, hlast⟩
    · exact hparent
    · have hc : c ∈ changes := hsplit ▸ List.mem_append_right _ List.mem_cons_self
      cases c with
      | upsert path' content => exact absurd heq (hunnamed _ hc)
      | delete path' =>
          have heq : taken path' = path := heq
          have hne : taken path' ≠ path' := fun hsame => hunnamed _ hc (hsame.symm.trans heq)
          rcases (h before path' after _ hsplit (hread path' hc) hne).other with
            hdelete | ⟨content, hupsert⟩ | ⟨-, hparent⟩
          · exact absurd heq (hunnamed _ hdelete)
          · exact absurd heq (hafter _ hupsert)
          · exact hlast.trans (heq ▸ hparent.symm)

/-- The new tree is the one that is meant if and only if the deletes that Git
misreads do no harm. -/
theorem exact_iff (hvalid : validateChanges r.limits changes = .ok ())
    (hput : r.newTree objects parent changes = some tree) :
    Exact objects parent changes tree ↔ Spared parent changes := by
  obtain ⟨hlines, hnodup⟩ := of_validateChanges hvalid
  obtain ⟨rfl, hreads⟩ := newTree_eq hlines hput
  exact ⟨spared_of_exact hnodup hreads, exact_of_spared hnodup hreads⟩

end

/-! ## A file in quotation marks -/

/-- What Git makes of an empty file; the name of every other one is left out. -/
def emptyObjects : Objects where
  oid _ := "e69de29bb2d1d6434b8b29ae775ad8c2e48c5391"
  isOid_oid _ := by decide +kernel

/-- A tree with one empty file. -/
def readmeTree : Index := Finmap.singleton "README.md" ⟨regular, emptyObjects.oid []⟩

theorem exact_iff_delete :
    Exact emptyObjects readmeTree [.delete "README.md"] ∅ ↔
      Spared readmeTree [.delete "README.md"] :=
  exact_iff (r := ⟨.default, 40⟩) (by decide +kernel) (by decide +kernel)

/-- The delete of a path in quotation marks takes another file away. -/
theorem quoted_delete_misread :
    validateChanges .default [.delete "\"README.md\""] = .ok () ∧
      (Repository.mk .default 40).newTree emptyObjects readmeTree
        [.delete "\"README.md\""] = some ∅ ∧
      ¬Exact emptyObjects readmeTree [.delete "\"README.md\""] ∅ := by
  refine ⟨by decide +kernel, by decide +kernel, fun h => ?_⟩
  have hreadme := h.2 "README.md" (by decide)
  exact absurd hreadme (by decide +kernel)

end Cresix.Git
