import Cresix.Rust.Fs

/-!
# Origins

The command line knows a server by its origin.  `Origin.parse` takes a text for
an origin, and `Origin.asStr` is the text that it keeps.  The `url` crate is a
parameter.  Two URLs are the same when their serializations are, and so are two
origins.
-/

namespace Cresix.Cli

/-! ## The `url` crate -/

/-- What the command line reads of a parsed `Url`. -/
structure Url where
  /-- The serialization. -/
  asStr : String
  scheme : String
  username : String
  password : Option String
  hostStr : Option String
  /-- The port, unless it is the default port of the scheme. -/
  port : Option Nat
  path : String
  query : Option String
  fragment : Option String
deriving DecidableEq, Repr

/-- The functions of the `url` crate. -/
structure UrlCrate where
  /-- `Url::parse`. -/
  parse : String → Option Url
  /-- `Url::set_path`. -/
  setPath : Url → String → Url

/-- A URL of the web with nothing behind its host and port. -/
structure Url.Root (url : Url) : Prop where
  scheme : url.scheme = "https" ∨ url.scheme = "http"
  username : url.username = ""
  password : url.password = none
  hostStr : url.hostStr ≠ none
  path : url.path = "/"
  query : url.query = none
  fragment : url.fragment = none

/-- The serialization of a URL is parsed back.  That of a root ends with its path, which is
the slash that a web URL has in any case. -/
structure UrlCrate.Lawful (crate : UrlCrate) : Prop where
  /-- The path of a web URL is never empty. -/
  setPath_root : ∀ {text : String} {url : Url},
    crate.parse text = some url → url.Root → crate.setPath url "" = url
  /-- The slash of a root may be left out. -/
  parse_root : ∀ {text : String} {url : Url},
    crate.parse text = some url → url.Root →
      crate.parse (Rust.trimEndMatches '/' url.asStr) = some url

/-! ## The client -/

inductive ClientError where
  | invalidOrigin | insecureOrigin | unauthenticated | forbidden | notFound | conflict
  | network (message : String)
  | protocol
  | api (status : Nat)
deriving DecidableEq, Repr

/-- A server origin. -/
structure Origin where
  url : Url
deriving DecidableEq, Repr

namespace Origin

/-- The hosts that may be reached without TLS. -/
def loopbackHosts : List String := ["localhost", "127.0.0.1", "::1"]

/-- The schemes that are let through. -/
def isSecure (url : Url) (allowHttpLocalhost : Bool) : Bool :=
  let isHttps := url.scheme == "https"
  let isLoopbackHttp := url.scheme == "http" && allowHttpLocalhost
    && url.hostStr.any fun host => loopbackHosts.contains host
  isHttps || isLoopbackHttp

/-- `Origin::parse`. -/
def parse (crate : UrlCrate) (input : String) (allowHttpLocalhost : Bool) :
    Except ClientError Origin :=
  match crate.parse input with
  | none => .error .invalidOrigin
  | some url =>
      if !isSecure url allowHttpLocalhost then .error .insecureOrigin
      else if url.username ≠ "" || url.password.isSome then .error .invalidOrigin
      else if url.query.isSome || url.fragment.isSome || url.path ≠ "/" then
        .error .invalidOrigin
      else if url.hostStr.isNone then .error .invalidOrigin
      else .ok ⟨crate.setPath url ""⟩

/-- `Origin::as_str`. -/
def asStr (origin : Origin) : String := Rust.trimEndMatches '/' origin.url.asStr

/-- `Origin::eq`. -/
def eq (a b : Origin) : Bool := a.url.asStr == b.url.asStr

variable {crate : UrlCrate} {input text : String} {url : Url} {origin a b c : Origin}
  {flag flag' : Bool}

theorem eq_iff : a.eq b = true ↔ a.url.asStr = b.url.asStr := beq_iff_eq

theorem eq_trans (h : a.eq b = true) (h' : b.eq c = true) : a.eq c = true :=
  eq_iff.mpr ((eq_iff.mp h).trans (eq_iff.mp h'))

theorem eq_symm (h : a.eq b = true) : b.eq a = true := eq_iff.mpr (eq_iff.mp h).symm

theorem root_of_isSecure (h : isSecure url flag = true) :
    url.scheme = "https" ∨ url.scheme = "http" := by
  simp only [isSecure, Bool.or_eq_true, Bool.and_eq_true, beq_iff_eq] at h
  exact h.imp_right fun h => h.1.1

/-- What is taken for an origin is the root of a web server. -/
theorem parse_eq_ok_iff :
    parse crate input flag = .ok origin ↔
      ∃ url, crate.parse input = some url ∧ isSecure url flag = true ∧ url.Root ∧
        origin = ⟨crate.setPath url ""⟩ := by
  constructor
  · intro h
    simp only [parse] at h
    split at h
    next => cases h
    next url hurl =>
      split at h
      next => cases h
      next hsecure =>
        split at h
        next => cases h
        next huser =>
          split at h
          next => cases h
          next hrest =>
            split at h
            next => cases h
            next hhost =>
              cases h
              simp only [ne_eq, Bool.or_eq_true, decide_eq_true_eq, not_or, not_not,
                Bool.not_eq_true, Option.isSome_eq_false_iff, Option.isNone_iff_eq_none] at *
              simp only [Bool.not_eq_false'] at hsecure
              exact ⟨url, hurl, hsecure, ⟨root_of_isSecure hsecure, huser.1, huser.2, hhost,
                hrest.2, hrest.1.1, hrest.1.2⟩, rfl⟩
  · rintro ⟨url, hurl, hsecure, hroot, rfl⟩
    simp [parse, hurl, hsecure, hroot.username, hroot.password, hroot.query, hroot.fragment,
      hroot.path, hroot.hostStr]

/-- The opt-in decides whether a text is taken, and not for which origin. -/
theorem parse_unique (h : parse crate input flag = .ok a) (h' : parse crate input flag' = .ok b) :
    a = b := by
  obtain ⟨url, hurl, _, _, rfl⟩ := parse_eq_ok_iff.mp h
  obtain ⟨url', hurl', _, _, rfl⟩ := parse_eq_ok_iff.mp h'
  rw [hurl] at hurl'
  cases hurl'
  rfl

/-- The text that is kept for an origin is taken for it again. -/
theorem parse_asStr (hcrate : crate.Lawful) (h : parse crate input flag = .ok origin) :
    parse crate origin.asStr flag = .ok origin := by
  obtain ⟨url, hurl, hsecure, hroot, rfl⟩ := parse_eq_ok_iff.mp h
  refine parse_eq_ok_iff.mpr ⟨url, ?_, hsecure, hroot, rfl⟩
  rw [asStr, hcrate.setPath_root hurl hroot]
  exact hcrate.parse_root hurl hroot

end Origin

/-! ## Paths of repositories -/

/-- `valid_slug`. -/
def validSlug (value : String) : Bool :=
  !value.isEmpty && Rust.len value ≤ 80
    && (Rust.bytes value).all (fun b => Rust.isAsciiLowercase b || Rust.isAsciiDigit b || b == 0x2d)
    && !Rust.startsWith value "-" && !Rust.endsWith value "-"

/-- `valid_git_path`. -/
def validGitPath (path : String) : Bool :=
  match Rust.stripPrefix path "/git/" with
  | none => false
  | some rest =>
      match Rust.stripSuffix rest ".git" with
      | none => false
      | some rest =>
          match Rust.split '/' rest.toList with
          | [workspace, project] =>
              validSlug (String.ofList workspace) && validSlug (String.ofList project)
          | _ => false

/-- Exactly one path is the path of a project of a workspace. -/
example : validGitPath "/git/paper-street/weeknote.git" = true := by decide

example : validGitPath "/git/a/../b.git" = false := by decide

end Cresix.Cli
