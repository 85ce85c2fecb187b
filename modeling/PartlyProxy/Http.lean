import PartlyProxy.Uri

namespace PartlyProxy

abbrev Bytes := List UInt8

/-- `http::Method` is kept as its token text, as `Method::as_str` gives it. -/
abbrev Method := String

/-- `std::time::Duration` in nanoseconds. -/
abbrev Duration := Nat

inductive Version where
  | http09
  | http10
  | http11
  | http2
  | http3
deriving DecidableEq, Repr

/-- `http::StatusCode`: three digits, so a value out of range cannot be built. -/
structure StatusCode where
  asU16 : Nat
  lower : 100 ≤ asU16
  upper : asU16 ≤ 999
deriving DecidableEq, Repr

namespace StatusCode

def fromU16 (n : Nat) : Option StatusCode :=
  if h : 100 ≤ n ∧ n ≤ 999 then some ⟨n, h.1, h.2⟩ else none

def ok : StatusCode := ⟨200, by decide, by decide⟩
def badGateway : StatusCode := ⟨502, by decide, by decide⟩
def serviceUnavailable : StatusCode := ⟨503, by decide, by decide⟩

@[simp] theorem fromU16_asU16 (s : StatusCode) : fromU16 s.asU16 = some s := by
  simp [fromU16, s.lower, s.upper]

end StatusCode

def isVisibleAscii (b : UInt8) : Bool := (32 ≤ b && b < 127) || b == 9

def isHeaderValueByte (b : UInt8) : Bool := (32 ≤ b && b != 127) || b == 9

def isTokenChar (c : Char) : Bool :=
  c.isAlphanum || c ∈ "!#$%&*+-.^_|~".toList || c = Char.ofNat 39 || c = Char.ofNat 96

def headerNameFromBytes (name : String) : Option String :=
  if name ≠ "" ∧ name.toList.all isTokenChar then some (String.ofList (name.toList.map Char.toLower)) else none

def headerValueFromBytes (value : Bytes) : Option Bytes :=
  if value.all isHeaderValueByte then some value else none

/-- `HeaderValue::from_str`, which also refuses every byte above ASCII. -/
def headerValueFromStr (value : String) : Option Bytes :=
  if value.toUTF8.toList.all isVisibleAscii then some value.toUTF8.toList else none

def headerValueToStr (value : Bytes) : Option String :=
  if value.all isVisibleAscii then some (String.ofList (value.map fun b => Char.ofNat b.toNat)) else none

/-- `http::HeaderMap` as its entries in iteration order, names in lower case.
A name with several values has several entries, one behind the other. -/
structure HeaderMap where
  entries : List (String × Bytes)
deriving DecidableEq, Repr

namespace HeaderMap

def empty : HeaderMap := ⟨[]⟩

/-- The last of the names moves into the gap. -/
def remove (headers : HeaderMap) (name : String) : HeaderMap :=
  let front := headers.entries.takeWhile fun entry => entry.1 ≠ name
  let back := (headers.entries.dropWhile fun entry => entry.1 ≠ name).filter fun entry => entry.1 ≠ name
  match back.getLast? with
  | none => ⟨front⟩
  | some last => ⟨front ++ (back.filter fun entry => entry.1 = last.1) ++ back.filter fun entry => entry.1 ≠ last.1⟩

/-- A new value takes the place of the old ones, or the last. -/
def insertEntry (name : String) (value : Bytes) : List (String × Bytes) → List (String × Bytes)
  | [] => [(name, value)]
  | entry :: rest =>
    if entry.1 = name then (name, value) :: rest.filter fun entry => entry.1 ≠ name
    else entry :: insertEntry name value rest

def insert (headers : HeaderMap) (name : String) (value : Bytes) : HeaderMap := ⟨insertEntry name value headers.entries⟩

def get (headers : HeaderMap) (name : String) : Option Bytes :=
  (headers.entries.find? fun entry => entry.1 = name).map Prod.snd

end HeaderMap

/-- The loop shared by `build_header_map` and `StubbedResponse::into_proxy`:
invalid pairs are dropped and each valid pair is inserted. -/
def insertPairs (pairs : List (String × String)) : HeaderMap :=
  pairs.foldl (fun map pair =>
    match headerNameFromBytes pair.1, headerValueFromBytes pair.2.toUTF8.toList with
    | some name, some value => map.insert name value
    | _, _ => map) HeaderMap.empty

structure ProxyRequest where
  method : Method
  uri : Uri
  headers : HeaderMap
  body : Bytes
  version : Version
deriving DecidableEq

structure ProxyResponse where
  status : StatusCode
  headers : HeaderMap
  body : Bytes
  version : Version
deriving DecidableEq

namespace ProxyResponse

def new (status : StatusCode) : ProxyResponse := ⟨status, HeaderMap.empty, [], .http11⟩

def withBody (resp : ProxyResponse) (body : Bytes) : ProxyResponse := { resp with body := body }

/-- `with_header` ignores a value that is no header value. -/
def withHeader (resp : ProxyResponse) (name : String) (value : Bytes) : ProxyResponse :=
  match headerValueFromBytes value with
  | some value => { resp with headers := resp.headers.insert name value }
  | none => resp

end ProxyResponse

end PartlyProxy
