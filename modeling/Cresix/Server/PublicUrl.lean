import Cresix.Server.Handlers

/-!
# The public URL of the server

Clone URLs begin with the URL under which the server is reached.  What is
configured for it is checked once, when the server starts, and the rest of the
server appends to the text that comes out of the check (`WebBase.of_validate`).
The parser of the `http` crate is a parameter.
-/

namespace Cresix.Server

/-! ## The `http` crate -/

/-- What the server reads of a `Uri`. -/
structure Uri where
  scheme : Option String
  authority : Option String
  path : String
  query : Option String
deriving DecidableEq, Repr

/-- A character that a URL may have in its authority. -/
def isAuthorityChar (c : Char) : Bool :=
  0x21 ≤ c.val && c.val ≤ 0x7e && !(['/', '\\', '?', '#'].contains c)

/-- A text of a web scheme, two slashes and an authority. -/
structure WebBase (base scheme authority : String) : Prop where
  text : base = scheme ++ "://" ++ authority
  scheme : scheme = "http" ∨ scheme = "https"
  nonempty : authority ≠ ""
  chars : ∀ c ∈ authority.toList, isAuthorityChar c = true

/-- What a `Uri` says of the text that it is parsed from. -/
structure UriLaw (parse : String → Option Uri) : Prop where
  authority : ∀ {input : String} {uri : Uri} {authority : String}, parse input = some uri →
    uri.authority = some authority → authority ≠ "" ∧
      ∀ c ∈ authority.toList, isAuthorityChar c = true
  /-- Without a query and a fragment the path is the end, and a missing one is read as a slash. -/
  text : ∀ {input : String} {uri : Uri} {scheme authority : String}, parse input = some uri →
    uri.scheme = some scheme → uri.authority = some authority → uri.query = none →
    '#' ∉ input.toList → Rust.startsWith input "http://" = true ∨
      Rust.startsWith input "https://" = true →
    ∃ path, input = scheme ++ "://" ++ authority ++ path ∧
      (path = uri.path ∨ path = "" ∧ uri.path = "/")

/-! ## The check -/

/-- `bail!` unless the condition holds. -/
def demand (condition : Bool) (message : String) : Except String Unit :=
  if condition then .ok () else .error message

/-- `Context::context`. -/
def context {α : Type} (value : Option α) (message : String) : Except String α :=
  value.elim (.error message) .ok

/-- `validate_public_base_url`. -/
def validatePublicBaseUrl (parse : String → Option Uri) (input : String) :
    Except String String := do
  demand (!input.toList.contains '#') "C6_PUBLIC_BASE_URL must not contain a fragment"
  demand (Rust.startsWith input "http://" || Rust.startsWith input "https://")
    "C6_PUBLIC_BASE_URL must use a lowercase http:// or https:// scheme"
  let uri ← context (parse input) "C6_PUBLIC_BASE_URL is malformed"
  let scheme ← context uri.scheme "C6_PUBLIC_BASE_URL has no scheme"
  demand (scheme == "http" || scheme == "https") "C6_PUBLIC_BASE_URL must use http or https"
  let authority ← context uri.authority "C6_PUBLIC_BASE_URL has no host"
  demand (!authority.toList.contains '@') "C6_PUBLIC_BASE_URL must not contain credentials"
  demand uri.query.isNone "C6_PUBLIC_BASE_URL must not contain a query"
  demand (uri.path == "" || uri.path == "/")
    "C6_PUBLIC_BASE_URL must be an origin without a path"
  return Rust.trimEndMatches '/' input

section

variable {parse : String → Option Uri} {input base scheme authority message : String}

theorem demand_eq_ok {condition : Bool} {u : Unit} :
    demand condition message = .ok u ↔ condition = true := by
  cases condition with
  | true => exact iff_of_true rfl rfl
  | false => exact iff_of_false (fun h => by cases h) (fun h => by cases h)

theorem context_eq_ok {α : Type} {value : Option α} {a : α} :
    context value message = .ok a ↔ value = some a := by
  cases value with
  | none => exact iff_of_false (fun h => by cases h) (fun h => by cases h)
  | some b => simp [context]

theorem WebBase.slash_notMem (h : WebBase base scheme authority) : '/' ∉ authority.toList := by
  intro hmem
  exact absurd (h.chars _ hmem) (by decide)

/-- A base does not end with a slash. -/
theorem WebBase.getLast?_ne (h : WebBase base scheme authority) :
    base.toList.getLast? ≠ some '/' := by
  have hne : authority.toList ≠ [] := fun hnil => h.nonempty (String.toList_eq_nil_iff.mp hnil)
  rw [h.text, String.toList_append, List.getLast?_append_of_ne_nil _ hne]
  intro hlast
  exact h.slash_notMem (List.mem_of_getLast? hlast)

/-- The text that is kept has nothing behind the authority. -/
theorem WebBase.of_validate (hlaw : UriLaw parse)
    (h : validatePublicBaseUrl parse input = .ok base) :
    ∃ scheme authority, WebBase base scheme authority := by
  obtain ⟨_, hfragment, h⟩ := bind_eq_ok.mp h
  obtain ⟨_, hstart, h⟩ := bind_eq_ok.mp h
  obtain ⟨uri, huri, h⟩ := bind_eq_ok.mp h
  obtain ⟨scheme, hscheme, h⟩ := bind_eq_ok.mp h
  obtain ⟨_, hweb, h⟩ := bind_eq_ok.mp h
  obtain ⟨authority, hauthority, h⟩ := bind_eq_ok.mp h
  obtain ⟨_, -, h⟩ := bind_eq_ok.mp h
  obtain ⟨_, hquery, h⟩ := bind_eq_ok.mp h
  obtain ⟨_, hpath, h⟩ := bind_eq_ok.mp h
  cases h
  have huri := context_eq_ok.mp huri
  have hauthority := context_eq_ok.mp hauthority
  obtain ⟨hnonempty, hchars⟩ := hlaw.authority huri hauthority
  have hbase : WebBase (scheme ++ "://" ++ authority) scheme authority :=
    ⟨rfl, by simpa using demand_eq_ok.mp hweb, hnonempty, hchars⟩
  obtain ⟨path, htext, hrest⟩ := hlaw.text huri (context_eq_ok.mp hscheme) hauthority
    (Option.isNone_iff_eq_none.mp (demand_eq_ok.mp hquery))
    (by simpa using demand_eq_ok.mp hfragment) (Bool.or_eq_true_iff.mp (demand_eq_ok.mp hstart))
  have hpath : uri.path = "" ∨ uri.path = "/" := by simpa using demand_eq_ok.mp hpath
  have hslashes : ∀ c ∈ path.toList, c = '/' := by
    have hempty : path = "" ∨ path = "/" := by
      rcases hrest with rfl | ⟨rfl, -⟩
      · exact hpath
      · exact .inl rfl
    rcases hempty with rfl | rfl
    · exact fun c hc => absurd hc List.not_mem_nil
    · exact fun c hc => List.mem_singleton.mp hc
  rw [htext, Rust.trimEndMatches_append hbase.getLast?_ne hslashes]
  exact ⟨scheme, authority, hbase⟩

end

/-! ## Clone URLs -/

/-- The path of a clone URL. -/
def clonePath (workspace project : String) : String := s!"/git/{workspace}/{project}.git"

/-- The `clone_url` of `project_remote`. -/
def cloneUrl (base workspace project : String) : String :=
  s!"{base}/git/{workspace}/{project}.git"

theorem cloneUrl_eq (base workspace project : String) :
    cloneUrl base workspace project = base ++ clonePath workspace project := by
  simp only [cloneUrl, clonePath, toString, String.append_assoc]

/-- `project_remote` answers with the clone URL of a workspace and a project in the tables. -/
theorem remoteReply_cloneUrl {config : Config} {userId id : String} {p : Option TokenPrincipal}
    {db : Database} {reply : Reply} (h : remoteReply config userId p id db = .ok reply) :
    ∃ workspace ∈ db.workspaces, ∃ row ∈ db.projects, row.id = id ∧
      row.workspaceId = workspace.id ∧
      reply = .remote id (cloneUrl config.publicBaseUrl workspace.slug row.slug)
        config.gitHttp false := by
  obtain ⟨row, hrow, h⟩ := bind_eq_ok.mp h
  obtain ⟨workspace, hworkspace, h⟩ := bind_eq_ok.mp h
  obtain ⟨_, -, h⟩ := bind_eq_ok.mp h
  cases h
  have hfound := orElse_eq_ok.mp hrow
  have hfoundWorkspace := orElse_eq_ok.mp hworkspace
  have hid := List.find?_some hfound
  have hworkspaceId := List.find?_some hfoundWorkspace
  simp only [Bool.and_eq_true, decide_eq_true_eq] at hid hworkspaceId
  exact ⟨workspace, List.mem_of_find?_eq_some hfoundWorkspace, row,
    List.mem_of_find?_eq_some hfound, hid.1, hworkspaceId.symm, rfl⟩

end Cresix.Server
