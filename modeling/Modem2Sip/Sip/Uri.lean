import Modem2Sip.Lib.Net

/-!
# SIP URIs and name-addr values

`sip/uri.rs`: the reader and the writer of a URI and of `"Display" <uri>;params`.
-/

namespace Modem2Sip.Sip

open Text

/-- A parameter, with or without a value. -/
abbrev Param := Str × Option Str

structure Uri where
  scheme : Str
  user : Option Str
  password : Option Str
  host : Str
  port : Option Nat
  params : List Param
  headers : List (Str × Str)
deriving DecidableEq, Repr

/-- Bracket an IPv6 literal for the wire. -/
def hostForWire (host : Str) : Str :=
  if ':' ∈ host ∧ ¬ ['['].isPrefixOf host then '[' :: host ++ [']'] else host

/-- Host and port.  A port that is no number stays part of the host. -/
def splitHostPort (s : Str) : Str × Option Nat :=
  let s := trim s
  let plain : Str × Option Nat :=
    match rsplitAt ':' s with
    | some (h, p) =>
      if ':' ∈ h then (s, none)
      else match parseU16 p with
        | some port => (h, some port)
        | none => (s, none)
    | none => (s, none)
  match stripPrefix ['['] s with
  | some rest =>
    match splitAt ']' rest with
    | some (host, after) => (host, (stripPrefix [':'] after).bind parseU16)
    | none => plain
  | none => plain

/-- `k=v` or `k`, the name in lower case. -/
def parseParam (p : Str) : Param :=
  match splitAt '=' p with
  | some (k, v) => (lower k, some v)
  | none => (lower p, none)

/-- `;k=v` or `;k`. -/
def showParam : Param → Str
  | (k, some v) => ';' :: k ++ '=' :: v
  | (k, none) => ';' :: k

/-- The first parameter of that name, in any letter case; `none` also when it has no value. -/
def findParam (params : List Param) (name : Str) : Option Str :=
  (params.find? fun p ↦ eqIgnoreCase p.1 name).bind Prod.snd

/-- Put a parameter last, in the place of all others of that name. -/
def putParam (params : List Param) (name : Str) (value : Option Str) : List Param :=
  params.filter (fun p ↦ !eqIgnoreCase p.1 name) ++ [(name, value)]

namespace Uri

def new (user : Option Str) (host : Str) (port : Option Nat) : Uri where
  scheme := "sip"
  user := user
  password := none
  host := host
  port := port
  params := []
  headers := []

/-- The text before the first `c`, and what follows it if it is there. -/
def cut (c : Char) (s : Str) : Str × Option Str :=
  match splitAt c s with
  | some (a, b) => (a, some b)
  | none => (s, none)

def parse (s : Str) : Option Uri := do
  let (scheme, rest) ← splitAt ':' (trim s)
  let scheme := lower (trim scheme)
  if scheme ≠ "sip" ∧ scheme ≠ "sips" ∧ scheme ≠ "tel" then none
  else
    let (rest, headersStr) := cut '?' rest
    let (userinfoHost, paramsStr) := cut ';' rest
    let (userinfo, hostport) : Option Str × Str :=
      match rsplitAt '@' userinfoHost with
      | some (u, h) => (some u, h)
      | none => (none, userinfoHost)
    let (user, password) : Option Str × Option Str :=
      match userinfo with
      | some ui => ((cut ':' ui).1, (cut ':' ui).2)
      | none => (none, none)
    -- A tel: URI has no host part: the whole of it is the number.
    let (user, host, port) : Option Str × Str × Option Nat :=
      if scheme = "tel" then (some (trim hostport), [], none)
      else (user, splitHostPort hostport)
    let params :=
      match paramsStr with
      | some ps => ((ps.splitOn ';').filter (· != [])).map parseParam
      | none => []
    let headers :=
      match headersStr with
      | some hs => ((hs.splitOn '&').filter (· != [])).filterMap (splitAt '=')
      | none => []
    some { scheme, user, password, host, port, params, headers }

def param (u : Uri) (name : Str) : Option Str := findParam u.params name

def setParam (u : Uri) (name : Str) (value : Option Str) : Uri :=
  { u with params := putParam u.params name value }

/-- The URI without password, parameters and headers. -/
def bare (u : Uri) : Uri := { u with password := none, params := [], headers := [] }

def «show» (u : Uri) : Str :=
  u.scheme ++ ":" ++
    (match u.user with
      | some user =>
        user ++ (match u.password with | some p => ':' :: p | none => []) ++
          (if u.host = [] then [] else ['@'])
      | none => []) ++
    hostForWire u.host ++
    (match u.port with | some p => ':' :: dec p | none => []) ++
    u.params.flatMap showParam ++
    (if u.headers = [] then []
      else '?' :: ['&'].intercalate (u.headers.map fun (k, v) ↦ k ++ '=' :: v))

end Uri

/-- `"Display" <sip:user@host>;tag=xyz`.  A parameter without a value has the empty one. -/
structure NameAddr where
  display : Option Str
  uri : Uri
  params : List (Str × Str)
deriving DecidableEq, Repr

namespace NameAddr

def new (uri : Uri) : NameAddr where
  display := none
  uri := uri
  params := []

/-- The display name and the rest of the field. -/
def parseDisplay (s : Str) : Option (Option Str × Str) :=
  match stripPrefix ['"'] s with
  | some stripped => do
    let (display, rest) ← splitAt '"' stripped
    some (some display, trimStart rest)
  | none =>
    if ['<'].isPrefixOf s then some (none, s)
    else match splitAt '<' s with
      | some (d, rest) =>
        let d := trim d
        some (if d = [] then none else some d, '<' :: rest)
      | none => some (none, s)

/-- The text of the URI and of the parameters.  Without angle brackets the parameters after
the first semicolon belong to the field. -/
def parseTarget (rest : Str) : Option (Str × Str) :=
  match stripPrefix ['<'] rest with
  | some rest => do
    let (uri, params) ← splitAt '>' rest
    some (uri, trimStart params)
  | none => some ((Uri.cut ';' rest).1, (Uri.cut ';' rest).2.getD [])

/-- A parameter of the field. -/
def parseFieldParam (p : Str) : Str × Str :=
  match splitAt '=' p with
  | some (k, v) => (lower (trim k), trim v)
  | none => (lower p, [])

def parse (s : Str) : Option NameAddr := do
  let (display, rest) ← parseDisplay (trim s)
  let (uriStr, paramsStr) ← parseTarget rest
  let uri ← Uri.parse uriStr
  let params := (((trimStartMatches ';' paramsStr).splitOn ';').map trim).filter (· != [])
  some { display, uri, params := params.map parseFieldParam }

def param (a : NameAddr) (name : Str) : Option Str :=
  (a.params.find? fun p ↦ eqIgnoreCase p.1 name).map Prod.snd

def tag (a : NameAddr) : Option Str := a.param "tag"

def setParam (a : NameAddr) (name : Str) (value : Option Str) : NameAddr :=
  { a with
    params := a.params.filter (fun p ↦ !eqIgnoreCase p.1 name) ++ [(lower name, value.getD [])] }

def withTag (a : NameAddr) (tag : Str) : NameAddr := a.setParam "tag" (some tag)

def «show» (a : NameAddr) : Str :=
  (match a.display with | some d => '"' :: d ++ "\" " | none => []) ++
    '<' :: a.uri.show ++ '>' ::
    a.params.flatMap fun (k, v) ↦ if v = [] then ';' :: k else ';' :: k ++ '=' :: v

end NameAddr

example : (Uri.parse "sip:+8210@[2001:db8::5]:5060;transport=udp").map Uri.show =
    some ("sip:+8210@[2001:db8::5]:5060;transport=udp" : Str) := by
  decide

example : (NameAddr.parse "\"Kim; <x>\" <sip:a@h;x=1>;tag=q").map NameAddr.tag =
    some (some ("q" : Str)) := by
  decide

end Modem2Sip.Sip
