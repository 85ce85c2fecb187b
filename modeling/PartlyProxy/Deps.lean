import PartlyProxy.Http

namespace PartlyProxy

/-- The functions of third-party crates that the request path calls:
`str::parse::<http::Uri>`, the `http::uri` builder (scheme, authority,
path-and-query), lowercase hex SHA-256 and `Regex::new` with `is_match`. -/
structure Deps where
  parseUri : String → Except String Uri
  buildUri : String → String → String → Except String Uri
  sha256Hex : Bytes → String
  compileRegex : String → Option (String → Bool)

/-- Parsing what `Display` wrote recovers the path-and-query of a slashed URI. -/
def Deps.UriRoundTrip (deps : Deps) : Prop :=
  ∀ u : Uri, u.Slashed → ∃ v, deps.parseUri u.toText = .ok v ∧ v.pathAndQuery = u.pathAndQuery

end PartlyProxy
