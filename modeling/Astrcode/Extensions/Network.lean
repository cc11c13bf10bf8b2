import Astrcode.Core.Primitives
import Astrcode.Library.Runs

/-!
# Outbound requests

`astrcode-extensions/src/host_router/network.rs`: the HTTP client that extensions get. It checks
the URL of a request and of every redirect, and the addresses its resolver answers with. The HTTP
library asks the policy before every redirect, and opens connections to the address in the URL if
it is one, and otherwise to addresses from its resolver only. Headers, bodies, deadlines and
permits are left out.
-/
namespace Astrcode

open Library

structure Ipv4Addr where
  (a b c d : Fin 256)
  deriving DecidableEq

structure Ipv6Addr where
  (s0 s1 s2 s3 s4 s5 s6 s7 : Fin 65536)
  deriving DecidableEq

inductive IpAddr where
  | v4 (ip : Ipv4Addr)
  | v6 (ip : Ipv6Addr)
  deriving DecidableEq

/-- The last two segments of an IPv6 address as an IPv4 address. -/
def Ipv4Addr.ofSegments (high low : Fin 65536) : Ipv4Addr :=
  ⟨.ofNat 256 (high / 256), .ofNat 256 high, .ofNat 256 (low / 256), .ofNat 256 low⟩

namespace Ipv6Addr

variable (ip : Ipv6Addr)

def segments : List Nat := [ip.s0, ip.s1, ip.s2, ip.s3, ip.s4, ip.s5, ip.s6, ip.s7]

def toIpv4Mapped : Option Ipv4Addr :=
  if ip.segments.take 6 = [0, 0, 0, 0, 0, 0xffff] then some (.ofSegments ip.s6 ip.s7) else none

end Ipv6Addr

/-! ### Addresses that may be reached -/

def isPublicIpv4 (ip : Ipv4Addr) : Bool :=
  let (a, b, c) := (ip.a.val, ip.b.val, ip.c.val)
  !(a = 0
    ∨ a = 10
    ∨ a = 127
    ∨ (a = 100 ∧ 64 ≤ b ∧ b ≤ 127)
    ∨ (a = 169 ∧ b = 254)
    ∨ (a = 172 ∧ 16 ≤ b ∧ b ≤ 31)
    ∨ (a = 192 ∧ b = 0 ∧ c = 0)
    ∨ (a = 192 ∧ b = 0 ∧ c = 2)
    ∨ (a = 192 ∧ b = 88 ∧ c = 99)
    ∨ (a = 192 ∧ b = 168)
    ∨ (a = 198 ∧ (b = 18 ∨ b = 19))
    ∨ (a = 198 ∧ b = 51 ∧ c = 100)
    ∨ (a = 203 ∧ b = 0 ∧ c = 113)
    ∨ a ≥ 224)

def isPublicIpv6 (ip : Ipv6Addr) : Bool :=
  match ip.toIpv4Mapped with
  | some ipv4 => isPublicIpv4 ipv4
  | none =>
    let (s0, s1, s2, s3) := (ip.s0.val, ip.s1.val, ip.s2.val, ip.s3.val)
    !(ip.segments = [0, 0, 0, 0, 0, 0, 0, 0]
      ∨ ip.segments = [0, 0, 0, 0, 0, 0, 0, 1]
      ∨ (s0 = 0x0064 ∧ s1 = 0xff9b ∧ (s2 = 1 ∨ s2 = 0 ∧ s3 = 0 ∧ ip.s4.val = 0 ∧ ip.s5.val = 0))
      ∨ (s0 = 0x0100 ∧ s1 = 0 ∧ s2 = 0 ∧ s3 = 0)
      ∨ (s0 = 0x2001 ∧ s1 ≤ 0x01ff)
      ∨ (s0 = 0x2001 ∧ s1 = 0x0db8)
      ∨ s0 &&& 0xfe00 = 0xfc00
      ∨ s0 &&& 0xffc0 = 0xfe80
      ∨ s0 &&& 0xffc0 = 0xfec0
      ∨ s0 &&& 0xff00 = 0xff00
      ∨ s0 = 0x2002
      ∨ (s0 = 0x3fff ∧ s1 &&& 0xf000 = 0)
      ∨ s0 = 0x5f00)

def isPublicIp : IpAddr → Bool
  | .v4 ip => isPublicIpv4 ip
  | .v6 ip => isPublicIpv6 ip

/-! ### Hosts -/

/-- The host without dots at its end, in lower case. -/
def trimHost (host : List Char) : List Char :=
  (host.reverse.dropWhile (· = '.')).reverse.map Char.toLower

/-- What is between the brackets of a host, or the host itself. -/
def ipLiteral (host : List Char) : List Char :=
  ((stripPrefix ['['] host).bind fun inner =>
    if inner.getLast? = some ']' then some inner.dropLast else none).getD host

/-- How the standard library writes and reads addresses. Upper case and dots at the end are not
what makes a text an address. -/
structure IpText where
  parse : List Char → Option IpAddr
  display : IpAddr → String
  parse_trim : ∀ host ip, parse (ipLiteral host) = some ip →
    parse (ipLiteral (trimHost host)) = some ip

structure Url where
  scheme : String
  username : String := ""
  password : Option String := none
  hostStr : Option (List Char)

inductive NetworkRedirectPolicy where
  | follow
  | manual

def maxRedirects : Nat := 10

section

variable (text : IpText)

def validateHostName (host : List Char) : Except String Unit := do
  let normalized := trimHost host
  ensure (¬(normalized = [] ∨ normalized = "localhost".toList ∨
      [".localhost", ".local", ".internal", ".home.arpa"].any (·.toList.isSuffixOf normalized)))
    ("network.client host is not public: " ++ String.ofList host)
  match text.parse (ipLiteral normalized) with
  | some ip =>
    ensure (isPublicIp ip) ("network.client address is not public: " ++ text.display ip)
  | none =>
    ensure ('.' ∈ normalized)
      ("network.client host must be a public domain: " ++ String.ofList host)

def validateNetworkUrl (url : Url) : Except String Unit := do
  ensure (url.scheme ∈ ["http", "https"]) "network.client only supports HTTP and HTTPS URLs"
  ensure (url.username = "" ∧ url.password = none)
    "network.client URLs must not contain credentials"
  match url.hostStr with
  | none => .error "network.client URL must contain a host"
  | some host => validateHostName text host

def validateResolvedAddresses (host : List Char) (addresses : List IpAddr) :
    Except String Unit := do
  ensure (addresses ≠ []) ("host did not resolve: " ++ String.ofList host)
  match addresses.find? (!isPublicIp ·) with
  | some address =>
    .error ("host resolves to a non-public address: " ++ text.display address)
  | none => .ok ()

/-- `PublicDnsResolver`, with what the DNS answers. -/
def resolve (host : List Char) (answer : Except String (List IpAddr)) :
    Except String (List IpAddr) := do
  validateHostName text host
  let resolved ← answer
  validateResolvedAddresses text host resolved
  return resolved

def validateRedirect (previous : Nat) (url : Url) : Except String Unit := do
  ensure (¬previous > maxRedirects) "too many redirects"
  validateNetworkUrl text url

/-! ### Requests -/

/-- A URL that a request is sent to, and the answers of the DNS to the lookups for it. -/
structure Hop where
  url : Url
  lookups : List (Except String (List IpAddr))

/-- The addresses that connections may be opened to. -/
def Hop.opened (hop : Hop) : List IpAddr :=
  match hop.url.hostStr with
  | none => []
  | some host =>
    match text.parse (ipLiteral host) with
    | some ip => [ip]
    | none => hop.lookups.flatMap fun answer => (resolve text host answer).toOption.getD []

/-- The redirects that are followed, after a number of URLs. -/
def followRedirects (previous : Nat) : List Hop → List Hop × Except String Unit
  | [] => ([], .ok ())
  | hop :: rest =>
    match validateRedirect text previous hop.url with
    | .error e => ([], .error e)
    | .ok () =>
      let (hops, outcome) := followRedirects (previous + 1) rest
      (hop :: hops, outcome)

/-- `RestrictedNetworkService::request`, with the redirects that are answered one after the
other. -/
def requestHops (policy : NetworkRedirectPolicy) (first : Hop) (redirects : List Hop) :
    List Hop × Except String Unit :=
  match validateNetworkUrl text first.url, policy with
  | .error e, _ => ([], .error e)
  | .ok (), .manual => ([first], .ok ())
  | .ok (), .follow =>
    let (hops, outcome) := followRedirects text 1 redirects
    (first :: hops, outcome)

end

end Astrcode
