import Cresix.Cli.Helper
import Cresix.Server.PublicUrl

/-!
# Clone URLs

The server builds the clone URL of a project, and three readers take it apart:
the client library that is told the URL, the command line that writes it into
the configuration of Git, and the credential helper that Git asks.  Each of
them has its own check.  The slugs that the server takes are within what all of
them take (`validGitPath_clonePath`), and so the clone URL is good for all of
them, and each of them reads the same origin and the same path from it.
-/

namespace Cresix.Cli

open Cresix.Server (WebBase UriLaw Uri clonePath cloneUrl validatePublicBaseUrl validateSlug
  isAuthorityChar)

/-! ## Readers -/

/-- `Url::port_or_known_default`. -/
def Url.portOrKnownDefault (url : Url) : Option Nat :=
  url.port.or
    (if url.scheme = "http" ∨ url.scheme = "ws" then some 80
    else if url.scheme = "https" ∨ url.scheme = "wss" then some 443
    else if url.scheme = "ftp" then some 21
    else none)

/-- `Origin::matches_url`. -/
def Origin.matchesUrl (origin : Origin) (candidate : Url) : Bool :=
  origin.url.scheme == candidate.scheme && origin.url.hostStr == candidate.hostStr
    && origin.url.portOrKnownDefault == candidate.portOrKnownDefault

/-- What the server tells of the remote of a project. -/
structure ProjectRemote where
  projectId : Rust.Uuid
  cloneUrl : String
  fetch : Bool
  push : Bool
deriving DecidableEq, Repr

/-- `Client::project_remote`, with the answer of the server. -/
def projectRemote (crate : UrlCrate) (origin : Origin) (projectId : Rust.Uuid)
    (answer : Except ClientError ProjectRemote) : Except ClientError ProjectRemote := do
  let remote ← answer
  if remote.projectId ≠ projectId then .error .protocol
  else
    match crate.parse remote.cloneUrl with
    | none => .error .protocol
    | some clone =>
        if !origin.matchesUrl clone || clone.username ≠ "" || clone.password.isSome
            || clone.query.isSome || clone.fragment.isSome || !validGitPath clone.path then
          .error .protocol
        else .ok remote

structure GitCredentialConfig where
  helperKey : String
  useHttpPathKey : String
deriving DecidableEq, Repr

/-- `git_credential_config`. -/
def gitCredentialConfig (crate : UrlCrate) (remoteUrl : String) :
    Except AppError GitCredentialConfig :=
  match crate.parse remoteUrl with
  | none => .error .protocol
  | some parsed =>
      if !(parsed.scheme == "https" || parsed.scheme == "http") || parsed.hostStr.isNone
          || !parsed.username.isEmpty || parsed.password.isSome || parsed.query.isSome
          || parsed.fragment.isSome || !validGitPath parsed.path then
        .error .protocol
      else .ok ⟨s!"credential.{remoteUrl}.helper", s!"credential.{remoteUrl}.useHttpPath"⟩

/-- Git asks the helper about a URL, as it is or taken apart. -/
def Asks (fields : Fields) (url : String) : Prop :=
  (fields.get? "url" = some url ∧ fields.get? "protocol" = none ∧ fields.get? "host" = none ∧
    fields.get? "path" = none) ∨
  fields.get? "url" = none ∧ ∃ protocol host path, fields.get? "protocol" = some protocol ∧
    fields.get? "host" = some host ∧ fields.get? "path" = some path ∧
    (protocol = "https" ∨ protocol = "http") ∧
    url = protocol ++ "://" ++ host ++ "/" ++ path

/-- All readers take the clone URL, for a repository of the origin at the path. -/
structure CloneUrlWorks (crate : UrlCrate) (origin : Origin) (url path : String) : Prop where
  remote : ∀ remote : ProjectRemote, remote.cloneUrl = url →
    projectRemote crate origin remote.projectId (.ok remote) = .ok remote
  gitPath : validGitPath path = true
  parsed : ∃ clone, crate.parse url = some clone ∧ origin.matchesUrl clone = true ∧
    clone.path = path
  config : gitCredentialConfig crate url =
    .ok ⟨s!"credential.{url}.helper", s!"credential.{url}.useHttpPath"⟩
  helper : ∀ fields, Asks fields url → requestTarget crate fields = .ok (some (origin, path))

/-! ## What the `url` crate keeps of a text -/

/-- A character that stands for itself in a URL. -/
def isUnreserved (c : Char) : Bool := c.isAlphanum || ['-', '.', '_', '~'].contains c

/-- A segment of a path that is kept as it is. -/
def isPlainSegment (segment : List Char) : Bool :=
  segment.all isUnreserved && !(segment == ['.'] || segment == ['.', '.'])

/-- A slash and plain segments with slashes between them. -/
def isPlainPath (path : String) : Bool :=
  match Rust.split '/' path.toList with
  | [] :: segments => !segments.isEmpty && segments.all isPlainSegment
  | _ => false

/-- What the URL Standard says about web servers, and the `url` crate keeps to. -/
structure UrlCrate.Standard (crate : UrlCrate) : Prop extends crate.Lawful where
  /-- A root is written as its origin and a slash. -/
  asStr_root : ∀ {text : String} {url : Url} {host : String}, crate.parse text = some url →
    url.Root → url.hostStr = some host → url.asStr = originText url host ++ "/"
  /-- The host of a web server is not empty and has none of the characters that end it. -/
  host_chars : ∀ {text : String} {url : Url} {host : String}, crate.parse text = some url →
    url.Root → url.hostStr = some host → host ≠ "" ∧ ∀ c ∈ host.toList, isAuthorityChar c = true
  /-- A plain path behind the authority is the path, and changes nothing else. -/
  parse_path : ∀ {base scheme authority path : String} {url : Url},
    WebBase base scheme authority → crate.parse base = some url → url.Root →
    isPlainPath path = true →
    ∃ asStr, crate.parse (base ++ path) = some { url with asStr := asStr, path := path }

/-! ## Paths -/

section

variable {slug workspace project : String}

/-- What the slugs of the server have in them. -/
structure SlugText (slug : String) : Prop where
  nonempty : slug ≠ ""
  /-- There are no dots and no slashes. -/
  chars : ∀ c ∈ slug.toList, isUnreserved c = true ∧ c ≠ '.' ∧ c ≠ '/'
  client : validSlug slug = true

theorem SlugText.of_validateSlug (h : validateSlug slug = .ok ()) : SlugText slug := by
  have hslug := Server.require_eq_ok.mp h
  rw [Bool.and_eq_true, Bool.and_eq_true, Bool.and_eq_true, Bool.and_eq_true] at hslug
  obtain ⟨⟨⟨⟨hmin, hmax⟩, hbytes⟩, hfirst⟩, hlast⟩ := hslug
  have hmin := of_decide_eq_true hmin
  have hmax := of_decide_eq_true hmax
  have hne : slug ≠ "" := by
    rintro rfl
    exact absurd hmin (by decide)
  have hall : ∀ n : Fin 256,
      (Rust.isAsciiLowercase (UInt8.ofNat n) || Rust.isAsciiDigit (UInt8.ofNat n)
        || UInt8.ofNat n == 0x2d) = true →
      UInt8.ofNat n ≤ 0x7f ∧ isUnreserved (Char.ofUInt8 (UInt8.ofNat n)) = true ∧
        Char.ofUInt8 (UInt8.ofNat n) ≠ '.' ∧ Char.ofUInt8 (UInt8.ofNat n) ≠ '/' := by
    decide +kernel
  have hbyte : ∀ b ∈ Rust.bytes slug, b ≤ 0x7f ∧ isUnreserved (Char.ofUInt8 b) = true ∧
      Char.ofUInt8 b ≠ '.' ∧ Char.ofUInt8 b ≠ '/' := by
    intro b hb
    have h := hall ⟨b.toNat, b.toNat_lt⟩
    rw [UInt8.ofNat_toNat] at h
    exact h (List.all_eq_true.mp hbytes b hb)
  refine ⟨hne, ?_, ?_⟩
  · rw [Rust.toList_of_ascii fun b hb => (hbyte b hb).1]
    intro c hc
    obtain ⟨b, hb, rfl⟩ := List.mem_map.mp hc
    exact (hbyte b hb).2
  · rw [validSlug, hbytes, hfirst, hlast, String.isEmpty_eq_false_iff.mpr hne]
    simp only [Bool.not_false, Bool.and_true, Bool.true_and, decide_eq_true_eq]
    omega

theorem SlugText.slash_notMem (h : SlugText slug) : '/' ∉ slug.toList :=
  fun hmem => (h.chars _ hmem).2.2 rfl

theorem clonePath_eq (workspace project : String) :
    clonePath workspace project = "/git/" ++ (workspace ++ "/" ++ project ++ ".git") := by
  simp only [clonePath, toString, String.append_assoc]

/-- The paths of clone URLs are paths of repositories. -/
theorem validGitPath_clonePath (hworkspace : SlugText workspace) (hproject : SlugText project) :
    validGitPath (clonePath workspace project) = true := by
  have hparts : Rust.split '/' (workspace ++ "/" ++ project).toList =
      [workspace.toList, project.toList] := by
    rw [String.toList_append, String.toList_append, List.append_assoc]
    show Rust.split '/' (workspace.toList ++ '/' :: project.toList) = _
    rw [Rust.split_append hworkspace.slash_notMem, Rust.split_of_not_mem hproject.slash_notMem]
  rw [validGitPath, clonePath_eq, Rust.stripPrefix_eq_some_iff.mpr rfl]
  dsimp only
  rw [Rust.stripSuffix_eq_some_iff.mpr rfl]
  dsimp only
  rw [hparts]
  dsimp only
  rw [String.ofList_toList, String.ofList_toList, hworkspace.client, hproject.client]
  rfl

theorem isPlainSegment_of_chars {segment : List Char}
    (h : ∀ c ∈ segment, isUnreserved c = true) (hlen : 2 < segment.length ∨ '.' ∉ segment) :
    isPlainSegment segment = true := by
  have hone : segment ≠ ['.'] := by
    rintro rfl
    rcases hlen with hlen | hlen
    · exact absurd hlen (by decide)
    · exact hlen List.mem_cons_self
  have htwo : segment ≠ ['.', '.'] := by
    rintro rfl
    rcases hlen with hlen | hlen
    · exact absurd hlen (by decide)
    · exact hlen List.mem_cons_self
  rw [isPlainSegment, List.all_eq_true.mpr h, beq_eq_false_iff_ne.mpr hone,
    beq_eq_false_iff_ne.mpr htwo]
  rfl

/-- The paths of clone URLs stand for themselves. -/
theorem isPlainPath_clonePath (hworkspace : SlugText workspace) (hproject : SlugText project) :
    isPlainPath (clonePath workspace project) = true := by
  have hfirst : isPlainSegment "git".toList = true := by decide
  have hsuffix : (".git".toList.all fun c => isUnreserved c && c != '/') = true := by decide
  have hchars : ∀ c ∈ project.toList ++ ".git".toList, isUnreserved c = true ∧ c ≠ '/' := by
    intro c hc
    rcases List.mem_append.mp hc with hc | hc
    · exact ⟨(hproject.chars c hc).1, (hproject.chars c hc).2.2⟩
    · simpa using List.all_eq_true.mp hsuffix c hc
  have hlong : 2 < (project.toList ++ ".git".toList).length := by
    have hfour : ".git".toList.length = 4 := by decide
    rw [List.length_append]
    omega
  have hparts : Rust.split '/' (clonePath workspace project).toList =
      [[], "git".toList, workspace.toList, project.toList ++ ".git".toList] := by
    have htext : (clonePath workspace project).toList =
        [] ++ '/' :: ("git".toList ++ '/' :: (workspace.toList ++ '/' ::
          (project.toList ++ ".git".toList))) := by
      rw [clonePath_eq]
      simp only [String.toList_append, List.append_assoc]
      rfl
    rw [htext, Rust.split_append List.not_mem_nil, Rust.split_append (by decide),
      Rust.split_append hworkspace.slash_notMem,
      Rust.split_of_not_mem fun hmem => (hchars _ hmem).2 rfl]
  rw [isPlainPath, hparts]
  dsimp only
  rw [List.all_cons, List.all_cons, List.all_cons, hfirst,
    isPlainSegment_of_chars (fun c hc => (hworkspace.chars c hc).1)
      (.inr fun hmem => (hworkspace.chars _ hmem).2.1 rfl),
    isPlainSegment_of_chars (fun c hc => (hchars c hc).1) (.inl hlong)]
  rfl

theorem trim_clonePath (workspace project : String) :
    "/" ++ String.ofList ((clonePath workspace project).toList.dropWhile (· = '/')) =
      clonePath workspace project := by
  have htext : (clonePath workspace project).toList =
      '/' :: ("git/" ++ (workspace ++ "/" ++ project ++ ".git")).toList := by
    rw [clonePath_eq]
    simp only [String.toList_append]
    rfl
  have hdrop : (clonePath workspace project).toList.dropWhile (· = '/') =
      ("git/" ++ (workspace ++ "/" ++ project ++ ".git")).toList := by
    rw [htext, List.dropWhile_cons_of_pos (by decide), String.toList_append]
    rfl
  rw [hdrop, String.ofList_toList]
  apply String.toList_inj.mp
  rw [htext, String.toList_append]
  rfl

end

/-! ## Origins -/

section

variable {crate : UrlCrate} {input base scheme authority path host : String} {url : Url}
  {flag : Bool} {origin : Origin} {fields : Fields} {parse : String → Option Uri}

/-- Text in front of the clone URLs of the server of the origin: the origin itself, or what the
server is configured with, when the client takes it for the origin. -/
inductive ServerBase (crate : UrlCrate) (parse : String → Option Uri) (origin : Origin) :
    String → Prop where
  | own : ServerBase crate parse origin origin.asStr
  | configured {input base : String} {flag : Bool}
      (valid : validatePublicBaseUrl parse input = .ok base)
      (known : Origin.parse crate base flag = .ok origin) : ServerBase crate parse origin base

theorem Origin.parse_url (hcrate : crate.Lawful) (h : Origin.parse crate input flag = .ok origin) :
    crate.parse input = some origin.url ∧ isSecure origin.url flag = true ∧ origin.url.Root := by
  obtain ⟨url, hurl, hsecure, hroot, rfl⟩ := parse_eq_ok_iff.mp h
  dsimp only
  rw [hcrate.setPath_root hurl hroot]
  exact ⟨hurl, hsecure, hroot⟩

/-- The helper lets plain HTTP through, so the opt-in does not matter to it. -/
theorem Origin.isSecure_of_scheme (h : isSecure url flag = true) :
    isSecure url (url.scheme == "http") = true := by
  simp only [isSecure, Bool.or_eq_true, Bool.and_eq_true] at h ⊢
  exact h.imp_right fun h => ⟨⟨h.1.1, h.1.1⟩, h.2⟩

theorem isAuthorityChar_of_isDigit {c : Char} (h : c.isDigit = true) :
    isAuthorityChar c = true := by
  have hnone : (['/', '\\', '?', '#'].all fun d => !d.isDigit) = true := by decide
  have hcontains : ['/', '\\', '?', '#'].contains c = false := by
    rw [← Bool.not_eq_true, List.contains_iff_mem]
    intro hmem
    have hdigit := List.all_eq_true.mp hnone c hmem
    rw [h] at hdigit
    cases hdigit
  obtain ⟨hlow, hhigh⟩ := Bool.and_eq_true_iff.mp h
  have hlow := UInt32.le_trans (show 0x21 ≤ 48 by decide) (of_decide_eq_true hlow)
  have hhigh := UInt32.le_trans (of_decide_eq_true hhigh) (show 57 ≤ 0x7e by decide)
  rw [isAuthorityChar, hcontains, decide_eq_true hlow, decide_eq_true hhigh]
  rfl

theorem isAuthorityChar_port {c : Char} {port : Option Nat}
    (h : c ∈ ((port.map fun p => ":" ++ toString p).getD "").toList) :
    isAuthorityChar c = true := by
  have hcolon : isAuthorityChar ':' = true := by decide
  cases port with
  | none => exact absurd h List.not_mem_nil
  | some p =>
      rw [Option.map_some, Option.getD_some, String.toList_append, List.mem_append] at h
      rcases h with h | h
      · rw [List.mem_singleton.mp h]
        exact hcolon
      · have htext : (toString p).toList = Nat.toDigits 10 p := Nat.toList_repr
        rw [htext] at h
        exact isAuthorityChar_of_isDigit (Nat.isDigit_of_mem_toDigits (by decide) (by decide) h)

/-- The text of an origin is a base. -/
theorem webBase_originText (hcrate : crate.Standard) (hurl : crate.parse input = some url)
    (hroot : url.Root) (hhost : url.hostStr = some host) :
    WebBase (originText url host) url.scheme
      (host ++ (url.port.map fun p => ":" ++ toString p).getD "") := by
  obtain ⟨hne, hchars⟩ := hcrate.host_chars hurl hroot hhost
  refine ⟨?_, hroot.scheme.symm, ?_, ?_⟩
  · rw [originText, String.append_assoc]
  · intro hempty
    exact hne (String.append_eq_empty_iff.mp hempty).1
  · intro c hc
    rw [String.toList_append, List.mem_append] at hc
    rcases hc with hc | hc
    · exact hchars c hc
    · exact isAuthorityChar_port hc

/-- The text of an origin is parsed into its root. -/
theorem parse_originText (hcrate : crate.Standard) (hurl : crate.parse input = some url)
    (hroot : url.Root) (hhost : url.hostStr = some host) :
    crate.parse (originText url host) = some url := by
  have htext : Rust.trimEndMatches '/' url.asStr = originText url host := by
    rw [hcrate.asStr_root hurl hroot hhost]
    exact Rust.trimEndMatches_append (webBase_originText hcrate hurl hroot hhost).getLast?_ne
      fun c hc => List.mem_singleton.mp hc
  rw [← htext]
  exact hcrate.parse_root hurl hroot

/-- Each base of the server is a base, and is parsed into the URL of the origin. -/
theorem ServerBase.parsed (hcrate : crate.Standard) (hlaw : UriLaw parse)
    (horigin : Origin.parse crate input flag = .ok origin)
    (h : ServerBase crate parse origin base) :
    (∃ scheme authority, WebBase base scheme authority) ∧
      crate.parse base = some origin.url := by
  obtain ⟨hurl, -, hroot⟩ := Origin.parse_url hcrate.toLawful horigin
  cases h with
  | own =>
      obtain ⟨host, hhost⟩ := Option.ne_none_iff_exists'.mp hroot.hostStr
      have hasStr : origin.asStr = originText origin.url host := by
        rw [Origin.asStr, hcrate.asStr_root hurl hroot hhost]
        exact Rust.trimEndMatches_append (webBase_originText hcrate hurl hroot hhost).getLast?_ne
          fun c hc => List.mem_singleton.mp hc
      rw [hasStr]
      exact ⟨⟨_, _, webBase_originText hcrate hurl hroot hhost⟩,
        parse_originText hcrate hurl hroot hhost⟩
  | configured valid known =>
      exact ⟨WebBase.of_validate hlaw valid, (Origin.parse_url hcrate.toLawful known).1⟩

theorem requestUrl_of_asks {text : String} (hurl : crate.parse text = some url)
    (h : Asks fields text) : requestUrl crate fields = .ok (some url) := by
  rcases h with ⟨htext, hprotocol, hhost, hpath⟩ | ⟨htext, protocol, host, path, hprotocol, hhost,
    hpath, hweb, rfl⟩
  · rw [requestUrl, htext, hprotocol, hhost, hpath]
    dsimp only
    rw [hurl]
    rfl
  · have hscheme : (protocol ≠ "https" && protocol ≠ "http") = false := by
      rcases hweb with rfl | rfl
      · decide
      · decide
    rw [requestUrl, htext, hprotocol, hhost, hpath]
    dsimp only
    rw [hscheme, Option.getD_some, hurl]
    rfl

/-- The URL of a path on the server of a root. -/
structure Url.Below (url root : Url) (path : String) : Prop where
  scheme : url.scheme = root.scheme
  username : url.username = ""
  password : url.password = none
  hostStr : url.hostStr = root.hostStr
  port : url.port = root.port
  path : url.path = path
  query : url.query = none
  fragment : url.fragment = none

theorem Url.Root.below (h : url.Root) (asStr path : String) :
    Url.Below { url with asStr := asStr, path := path } url path :=
  ⟨rfl, h.username, h.password, rfl, rfl, rfl, h.query, h.fragment⟩

theorem Url.Below.matchesUrl (h : url.Below origin.url path) : origin.matchesUrl url = true := by
  simp [Origin.matchesUrl, Url.portOrKnownDefault, h.scheme, h.hostStr, h.port]

/-- The helper finds the origin of a URL below it. -/
theorem requestTarget_of_below {text : String} (hcrate : crate.Standard)
    (horigin : Origin.parse crate input flag = .ok origin) (hurl : crate.parse text = some url)
    (hbelow : url.Below origin.url path)
    (htrim : "/" ++ String.ofList (path.toList.dropWhile (· = '/')) = path)
    (hasks : Asks fields text) : requestTarget crate fields = .ok (some (origin, path)) := by
  obtain ⟨horiginUrl, hsecure, hroot⟩ := Origin.parse_url hcrate.toLawful horigin
  obtain ⟨host, hhost⟩ := Option.ne_none_iff_exists'.mp hroot.hostStr
  have htext : originText url host = originText origin.url host := by
    rw [originText, originText, hbelow.scheme, hbelow.port]
  have htarget : Origin.parse crate (originText url host) (url.scheme == "http") =
      .ok origin := by
    refine Origin.parse_eq_ok_iff.mpr ⟨origin.url, ?_, ?_, hroot, ?_⟩
    · rw [htext]
      exact parse_originText hcrate horiginUrl hroot hhost
    · rw [hbelow.scheme]
      exact Origin.isSecure_of_scheme hsecure
    · rw [hcrate.setPath_root horiginUrl hroot]
  simp [requestTarget, requestUrl_of_asks hurl hasks, hbelow.username, hbelow.password,
    hbelow.query, hbelow.fragment, hbelow.hostStr, hbelow.path, hhost, htarget, htrim]

/-- A clone URL below the origin is good for all readers. -/
theorem CloneUrlWorks.of_below {text : String} (hcrate : crate.Standard)
    (horigin : Origin.parse crate input flag = .ok origin) (hurl : crate.parse text = some url)
    (hbelow : url.Below origin.url path) (hpath : validGitPath path = true)
    (htrim : "/" ++ String.ofList (path.toList.dropWhile (· = '/')) = path) :
    CloneUrlWorks crate origin text path := by
  have hroot := (Origin.parse_url hcrate.toLawful horigin).2.2
  refine ⟨?_, hpath, ⟨_, hurl, hbelow.matchesUrl, hbelow.path⟩, ?_, ?_⟩
  · rintro remote rfl
    simp [projectRemote, hurl, hbelow.matchesUrl, hbelow.path, hpath, hbelow.username,
      hbelow.password, hbelow.query, hbelow.fragment, Bind.bind, Except.bind]
  · have hscheme : url.scheme = "https" ∨ url.scheme = "http" := hbelow.scheme ▸ hroot.scheme
    simpa [gitCredentialConfig, hurl, hpath, hbelow.hostStr, hroot.hostStr, hbelow.username,
      hbelow.password, hbelow.query, hbelow.fragment, hbelow.path] using hscheme.resolve_left
  · intro fields hasks
    exact requestTarget_of_below hcrate horigin hurl hbelow htrim hasks

end

/-- The clone URL of every project works with the client, for every origin that the client takes
and every text that the server of the origin puts in front of the path.  All readers find the
origin and the path that the URL is made of.  It is the URL that the server answers with. -/
theorem clone_url_works {crate : UrlCrate} (hcrate : crate.Standard)
    {parseUri : String → Option Uri} (hlaw : UriLaw parseUri) {input base : String} {flag : Bool}
    {origin : Origin} (horigin : Origin.parse crate input flag = .ok origin)
    (hbase : ServerBase crate parseUri origin base) :
    (∀ workspace project, validateSlug workspace = .ok () → validateSlug project = .ok () →
      CloneUrlWorks crate origin (cloneUrl base workspace project)
        (clonePath workspace project)) ∧
    ∀ config userId principal id db reply, config.publicBaseUrl = base →
      Server.remoteReply config userId principal id db = .ok reply →
      ∃ workspace ∈ db.workspaces, ∃ row ∈ db.projects, row.id = id ∧
        row.workspaceId = workspace.id ∧
        reply = .remote id (cloneUrl base workspace.slug row.slug) config.gitHttp false := by
  obtain ⟨⟨scheme, authority, hweb⟩, hurl⟩ := hbase.parsed hcrate hlaw horigin
  have hroot := (Origin.parse_url hcrate.toLawful horigin).2.2
  constructor
  · intro workspace project hworkspace hproject
    have hworkspace := SlugText.of_validateSlug hworkspace
    have hproject := SlugText.of_validateSlug hproject
    obtain ⟨asStr, hclone⟩ := hcrate.parse_path hweb hurl hroot
      (isPlainPath_clonePath hworkspace hproject)
    rw [Server.cloneUrl_eq]
    exact .of_below hcrate horigin hclone (hroot.below asStr _)
      (validGitPath_clonePath hworkspace hproject) (trim_clonePath workspace project)
  · rintro config userId principal id db reply rfl hreply
    exact Server.remoteReply_cloneUrl hreply

/-! ## One server -/

def webRoot : Url where
  asStr := "https://c6.example/"
  scheme := "https"
  username := ""
  password := none
  hostStr := some "c6.example"
  port := none
  path := "/"
  query := none
  fragment := none

/-- The URLs of one server, with plain paths. -/
def webCrate : UrlCrate where
  parse text :=
    if text = "https://c6.example" then some webRoot
    else
      match Rust.stripPrefix text "https://c6.example" with
      | none => none
      | some path =>
          if isPlainPath path then some { webRoot with asStr := text, path := path } else none
  setPath url path := { url with path := if path.isEmpty then "/" else path }

/-- The URL of the server and no other. -/
def webUri (input : String) : Option Uri :=
  if input = "https://c6.example" then some ⟨some "https", some "c6.example", "/", none⟩ else none

theorem webCrate_root {text : String} {url : Url} (hurl : webCrate.parse text = some url)
    (hroot : url.Root) :
    url = webRoot ∧ (text = "https://c6.example" ∨ text = "https://c6.example/") := by
  simp only [webCrate] at hurl
  split at hurl
  next htext =>
    cases hurl
    exact ⟨rfl, .inl htext⟩
  next =>
    split at hurl
    next => cases hurl
    next path hpath =>
      split at hurl
      next =>
        cases hurl
        obtain rfl : path = "/" := hroot.path
        obtain rfl := Rust.stripPrefix_eq_some_iff.mp hpath
        exact ⟨rfl, .inr rfl⟩
      next => cases hurl

theorem webCrate_standard : webCrate.Standard where
  setPath_root hurl hroot := by
    obtain ⟨rfl, -⟩ := webCrate_root hurl hroot
    rfl
  parse_root hurl hroot := by
    obtain ⟨rfl, -⟩ := webCrate_root hurl hroot
    decide
  asStr_root hurl hroot hhost := by
    obtain ⟨rfl, -⟩ := webCrate_root hurl hroot
    cases hhost
    decide
  host_chars hurl hroot hhost := by
    obtain ⟨rfl, -⟩ := webCrate_root hurl hroot
    cases hhost
    have hchars : "c6.example".toList.all isAuthorityChar = true := by decide
    exact ⟨by decide, List.all_eq_true.mp hchars⟩
  parse_path := by
    intro base scheme authority path url hweb hurl hroot hpath
    obtain ⟨rfl, htext⟩ := webCrate_root hurl hroot
    rcases htext with rfl | rfl
    · have hne : path ≠ "" := by
        rintro rfl
        exact absurd hpath (by decide)
      have hlonger : "https://c6.example" ++ path ≠ "https://c6.example" := fun heq =>
        hne (String.append_right_inj _ |>.mp (heq.trans (String.append_empty).symm))
      refine ⟨"https://c6.example" ++ path, ?_⟩
      simp only [webCrate]
      rw [if_neg hlonger, Rust.stripPrefix_eq_some_iff.mpr rfl]
      exact if_pos hpath
    · exact absurd (by decide) hweb.getLast?_ne

theorem webUri_law : UriLaw webUri where
  authority hinput hauthority := by
    unfold webUri at hinput
    split at hinput
    next =>
      cases hinput
      cases hauthority
      have hchars : "c6.example".toList.all isAuthorityChar = true := by decide
      exact ⟨by decide, List.all_eq_true.mp hchars⟩
    next => cases hinput
  text hinput hscheme hauthority _ _ _ := by
    unfold webUri at hinput
    split at hinput
    next heq =>
      cases hinput
      cases hscheme
      cases hauthority
      exact ⟨"", heq, .inr ⟨rfl, rfl⟩⟩
    next => cases hinput

/-- A project of the server. -/
theorem clone_url_works_weeknote :
    CloneUrlWorks webCrate ⟨webRoot⟩ "https://c6.example/git/paper-street/weeknote.git"
      "/git/paper-street/weeknote.git" := by
  have horigin : Origin.parse webCrate "https://c6.example/" false = .ok ⟨webRoot⟩ := by decide
  have hvalid : validatePublicBaseUrl webUri "https://c6.example" = .ok "https://c6.example" := by
    decide
  have hknown : Origin.parse webCrate "https://c6.example" false = .ok ⟨webRoot⟩ := by decide
  exact (clone_url_works webCrate_standard webUri_law horigin (.configured hvalid hknown)).1
    "paper-street" "weeknote" (by decide) (by decide)

end Cresix.Cli
