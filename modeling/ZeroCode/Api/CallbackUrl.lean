import Mathlib.Data.List.Basic

/-!
# Callback URLs a request may name

The handler of a submission turns away a callback URL whose scheme is not a web scheme,
whose host is on a short list, or whose host is an address of a private network. A name is
not resolved. Parsing a URL, parsing an address out of a name and writing an address down
are parameters.
-/

namespace ZeroCode.Api

/-- An address of version 4 in its four bytes. -/
structure Ipv4Addr where
  a : UInt8
  b : UInt8
  c : UInt8
  d : UInt8
  deriving DecidableEq, Repr

/-- An address of version 6 in its eight segments. -/
structure Ipv6Addr where
  segments : Vector UInt16 8
  deriving DecidableEq, Repr

/-- An address. -/
inductive IpAddr
  | v4 (v4 : Ipv4Addr)
  | v6 (v6 : Ipv6Addr)
  deriving DecidableEq, Repr

/-- The host of a URL. -/
inductive Host
  | domain (name : String)
  | ipv4 (v4 : Ipv4Addr)
  | ipv6 (v6 : Ipv6Addr)
  deriving DecidableEq, Repr

/-- What the check reads of a URL: its scheme, its host as a text and its host. -/
structure Url where
  scheme : String
  hostStr : Option String
  host : Option Host
  deriving DecidableEq, Repr

/-- An address in `127.0.0.0/8`. -/
def Ipv4Addr.isLoopback (ip : Ipv4Addr) : Bool := ip.a == 127

/-- An address in `10.0.0.0/8`, `172.16.0.0/12` or `192.168.0.0/16`. -/
def Ipv4Addr.isPrivate (ip : Ipv4Addr) : Bool :=
  ip.a == 10 || (ip.a == 172 && (16 ≤ ip.b && ip.b ≤ 31)) || (ip.a == 192 && ip.b == 168)

/-- An address in `169.254.0.0/16`. -/
def Ipv4Addr.isLinkLocal (ip : Ipv4Addr) : Bool := ip.a == 169 && ip.b == 254

/-- The address `0.0.0.0`. -/
def Ipv4Addr.isUnspecified (ip : Ipv4Addr) : Bool := ip == ⟨0, 0, 0, 0⟩

/-- The address `::1`. -/
def Ipv6Addr.isLoopback (ip : Ipv6Addr) : Bool := ip.segments == #v[0, 0, 0, 0, 0, 0, 0, 1]

/-- The address `::`. -/
def Ipv6Addr.isUnspecified (ip : Ipv6Addr) : Bool := ip.segments == #v[0, 0, 0, 0, 0, 0, 0, 0]

/-- The address is not one of the public network. The link-local addresses of version 6 are those of one
segment, and the unique local ones are told by seven bits. -/
def isPrivateOrLoopback : IpAddr → Bool
  | .v4 v4 => v4.isLoopback || v4.isPrivate || v4.isLinkLocal || v4.isUnspecified
  | .v6 v6 =>
    v6.isLoopback || v6.isUnspecified || v6.segments[0] == 0xfe80 || v6.segments[0] &&& 0xfe00 == 0xfc00

/-- The names that are never called. -/
def badHosts : List String := ["localhost", "metadata.google.internal", "169.254.169.254"]

/-- A name ends like this one. -/
def endsWith (text suffix : String) : Bool := suffix.toList.isSuffixOf text.toList

/-- The address of a host, if it is one or its text can be read as one. -/
def Url.ip (parseIp : String → Option IpAddr) (url : Url) (host : String) : Option IpAddr :=
  match url.host with
  | some (.ipv4 v4) => some (.v4 v4)
  | some (.ipv6 v6) => some (.v6 v6)
  | _ => parseIp host

/-- Check a callback URL. -/
def validateCallbackUrl (parseIp : String → Option IpAddr) (display : IpAddr → String) (url : Url) :
    Except String Unit :=
  if url.scheme ≠ "http" ∧ url.scheme ≠ "https" then
    .error ("callback_url scheme '" ++ url.scheme ++ "' not allowed")
  else
    match url.hostStr with
    | none => .error "callback_url missing host"
    | some host =>
      let hostLower := host.map Char.toLower
      if hostLower ∈ badHosts then .error ("callback_url host '" ++ host ++ "' is on the deny list")
      else if endsWith hostLower ".internal" then .error "callback_url host '.internal' is on the deny list"
      else
        match url.ip parseIp host with
        | some ip =>
          if isPrivateOrLoopback ip then .error ("callback_url ip " ++ display ip ++ " is private/loopback") else .ok ()
        | none => .ok ()

/-- What it takes to be called. -/
theorem validateCallbackUrl_eq_ok_iff {parseIp : String → Option IpAddr} {display : IpAddr → String} {url : Url} :
    validateCallbackUrl parseIp display url = .ok () ↔
      (url.scheme = "http" ∨ url.scheme = "https") ∧ ∃ host, url.hostStr = some host ∧
        host.map Char.toLower ∉ badHosts ∧ endsWith (host.map Char.toLower) ".internal" = false ∧
          ∀ ip, url.ip parseIp host = some ip → isPrivateOrLoopback ip = false := by
  unfold validateCallbackUrl
  split
  · rename_i hscheme
    simp [hscheme]
  · rename_i hscheme
    have hweb : url.scheme = "http" ∨ url.scheme = "https" := by
      by_contra hnot
      exact hscheme (not_or.mp hnot)
    cases hhost : url.hostStr with
    | none => simp
    | some host =>
      simp only [hweb, true_and, Option.some.injEq, exists_eq_left']
      split
      · rename_i hbad
        simp [hbad]
      · rename_i hbad
        split
        · rename_i hinternal
          simp [hinternal]
        · rename_i hinternal
          cases hip : url.ip parseIp host with
          | none => simp [hbad, hinternal]
          | some ip =>
            cases hprivate : isPrivateOrLoopback ip with
            | true => simp [hprivate]
            | false => simp [hbad, hinternal, hprivate]

end ZeroCode.Api
