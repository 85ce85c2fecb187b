import PartlyProxy.Deps
import PartlyProxy.Error

namespace PartlyProxy

def fractionDigits (width n : Nat) : List Char :=
  let digits := (toString n).toList
  ((List.replicate (width - digits.length) '0' ++ digits).reverse.dropWhile (· = '0')).reverse

def withFraction (whole : Nat) (fraction : List Char) (unit : String) : String :=
  toString whole ++ (if fraction = [] then "" else "." ++ String.ofList fraction) ++ unit

/-- `Debug for Duration`: the largest unit that is not zero, with its fraction. -/
def debugDuration (d : Duration) : String :=
  if 1000000000 ≤ d then withFraction (d / 1000000000) (fractionDigits 9 (d % 1000000000)) "s"
  else if 1000000 ≤ d then withFraction (d / 1000000) (fractionDigits 6 (d % 1000000)) "ms"
  else if 1000 ≤ d then withFraction (d / 1000) (fractionDigits 3 (d % 1000)) "µs"
  else toString d ++ "ns"

structure UpstreamTarget where
  baseUrl : String
  hostHeader : Option String
  requestTimeout : Duration
deriving DecidableEq, Repr

def UpstreamTarget.new (baseUrl : String) : UpstreamTarget := ⟨baseUrl, none, 30000000000⟩

/-- The parsed base URL; the prefix has no trailing slash. -/
structure BaseUri where
  scheme : String
  authority : String
  pathPrefix : String
deriving DecidableEq, Repr

def parseBaseUrl (deps : Deps) (s : String) : Except ProxyError BaseUri :=
  match deps.parseUri s with
  | .error text => .error (.other text)
  | .ok uri =>
    match uri.scheme with
    | none => .error (.upstreamConnect ("base_url missing scheme: " ++ s) none)
    | some scheme =>
      if scheme ≠ "http" ∧ scheme ≠ "https" then
        .error (.upstreamConnect ("unsupported scheme " ++ scheme ++ " in base_url: " ++ s) none)
      else
        match uri.authority with
        | none => .error (.upstreamConnect ("base_url missing authority: " ++ s) none)
        | some authority =>
          .ok ⟨scheme, authority, String.ofList ((uri.path.toList.reverse.dropWhile (· = '/')).reverse)⟩

structure Forwarder where
  target : UpstreamTarget
  base : BaseUri
deriving DecidableEq, Repr

/-- How the outbound call ends: a timeout, a connect failure, a later failure of
the request, or a response whose body may still fail to arrive. -/
inductive ClientResult where
  | timedOut
  | connectError (source : String)
  | requestError (source : String)
  | response (status : StatusCode) (headers : HeaderMap) (version : Version) (body : Except String Bytes)

namespace Forwarder

def new (deps : Deps) (target : UpstreamTarget) : Except ProxyError Forwarder :=
  (parseBaseUrl deps target.baseUrl).map fun base => ⟨target, base⟩

def buildOutboundUri (deps : Deps) (fwd : Forwarder) (inbound : Uri) : Except ProxyError Uri :=
  match deps.buildUri fwd.base.scheme fwd.base.authority
      (fwd.base.pathPrefix ++ inbound.pathAndQuery.getD "/") with
  | .ok uri => .ok uri
  | .error text => .error (.upstreamRequest "URI build failed" (some text))

def outboundHeaders (fwd : Forwarder) (headers : HeaderMap) : Except ProxyError HeaderMap :=
  match fwd.target.hostHeader with
  | some overrideHost =>
    match headerValueFromStr overrideHost with
    | some value => .ok (headers.insert "host" value)
    | none => .error (.upstreamRequest "invalid host_header override" (some "failed to parse header value"))
  | none => .ok (headers.remove "host")

def outboundRequest (req : ProxyRequest) (uri : Uri) (headers : HeaderMap) : ProxyRequest :=
  { req with uri := uri, headers := (headers.remove "content-length").remove "transfer-encoding" }

/-- The end of `forward`, from the client's result to the chain's outcome,
`classify_legacy_error` included. -/
def settle (fwd : Forwarder) (outboundUri : Uri) : ClientResult → Outcome
  | .timedOut => .error (.upstreamRequest ("request to " ++ outboundUri.toText ++ " timed out after " ++
      debugDuration fwd.target.requestTimeout) none)
  | .connectError source => .error (.upstreamConnect ("connect to " ++ outboundUri.toText) (some source))
  | .requestError source => .error (.upstreamRequest ("request to " ++ outboundUri.toText) (some source))
  | .response _ _ _ (.error source) => .error (.upstreamRequest "response body read failed" (some source))
  | .response status headers version (.ok body) => .ok ⟨status, headers, body, version⟩

/-- `Forwarder::forward`. The upstream is the function `net`. -/
def forward (deps : Deps) (fwd : Forwarder) (net : ProxyRequest → ClientResult) (req : ProxyRequest) : Outcome :=
  match fwd.buildOutboundUri deps req.uri with
  | .error err => .error err
  | .ok outboundUri =>
    match fwd.outboundHeaders req.headers with
    | .error err => .error err
    | .ok headers => fwd.settle outboundUri (net (outboundRequest req outboundUri headers))

end Forwarder

end PartlyProxy
