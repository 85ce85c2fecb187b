import PartlyProxy.Http

namespace PartlyProxy

/-- `ProxyError`. Every wrapped error is kept as its display text. -/
inductive ProxyError where
  | bind (source : String)
  | upstreamConnect (context : String) (source : Option String)
  | upstreamRequest (context : String) (source : Option String)
  | middleware (source : String)
  | command (text : String)
  | recording (source : String)
  | tls (text : String)
  | unknownUpstream (name : String)
  | shutdown (text : String)
  | other (source : String)
deriving DecidableEq, Repr

namespace ProxyError

/-- `Display for ProxyError`. The source of an upstream error is not shown. -/
def toText : ProxyError → String
  | bind source => "listener bind failed: " ++ source
  | upstreamConnect context _ => "upstream connection failed: " ++ context
  | upstreamRequest context _ => "upstream request failed: " ++ context
  | middleware source => source
  | command text => "command channel error: " ++ text
  | recording source => "recording I/O failed: " ++ source
  | tls text => "TLS error: " ++ text
  | unknownUpstream name => "unknown upstream: " ++ name
  | shutdown text => "shutdown failed: " ++ text
  | other source => source

theorem toText_upstreamConnect (context : String) (source : Option String) :
    (upstreamConnect context source).toText = "upstream connection failed: " ++ context := rfl

theorem toText_upstreamRequest (context : String) (source : Option String) :
    (upstreamRequest context source).toText = "upstream request failed: " ++ context := rfl

def errorKind : ProxyError → String
  | bind _ => "bind"
  | upstreamConnect _ _ => "upstream-connect"
  | upstreamRequest _ _ => "upstream-request"
  | middleware _ => "middleware"
  | command _ => "command"
  | recording _ => "recording"
  | tls _ => "tls"
  | unknownUpstream _ => "unknown-upstream"
  | shutdown _ => "shutdown"
  | other _ => "other"

end ProxyError

abbrev Outcome := Except ProxyError ProxyResponse

def badGateway (err : ProxyError) : ProxyResponse where
  status := .badGateway
  headers := ⟨[("content-type", "text/plain; charset=utf-8".toUTF8.toList),
    ("x-proxy-error", err.errorKind.toUTF8.toList)]⟩
  body := err.toText.toUTF8.toList
  version := .http11

/-- `into_hyper`: the framing headers are recomputed from the body, so they are stripped. -/
def intoHyper (resp : ProxyResponse) : ProxyResponse :=
  { resp with headers := (resp.headers.remove "content-length").remove "transfer-encoding" }

@[simp] theorem intoHyper_status (resp : ProxyResponse) : (intoHyper resp).status = resp.status := rfl
@[simp] theorem intoHyper_body (resp : ProxyResponse) : (intoHyper resp).body = resp.body := rfl

end PartlyProxy
