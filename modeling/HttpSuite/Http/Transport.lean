import HttpSuite.Http.Message
import HttpSuite.Text.Quoted

/-!
The exchange of a request for a response. A transport answers a request in view of those sent
before it; a response with any status is an answer, and only the exchange itself can fail.
`unconnected` is the transport of a program that reaches no network: it checks what has to be
right before a connection is made.
-/

namespace HttpSuite

open HttpSuite.Text

inductive TransportError where
  | invalidMethod (method : String)
  | failed (url message : String)
  deriving DecidableEq

def TransportError.message : TransportError → String
  | invalidMethod method => "invalid HTTP method " ++ quoted method
  | failed url message => "request to " ++ url ++ " failed: " ++ message

/-- Answers a request, given the requests sent before it, oldest first. -/
abbrev Transport := List Request → Request → Except TransportError Response

namespace Transport

/-- Characters of method names. -/
def isMethodChar (c : Char) : Bool :=
  c.isAlphanum || "!*+-.^_`|~".toList.contains c

def isMethod (method : String) : Bool :=
  !method.isEmpty && method.toList.all isMethodChar

/-- Letters of a URL scheme after the first. -/
def isSchemeChar (c : Char) : Bool :=
  c.isAlphanum || c == '+' || c == '-' || c == '.'

/-- Whether a URL begins with a scheme and a colon. -/
def hasScheme (url : String) : Bool :=
  match url.toList with
  | c :: cs => c.isAlpha && (cs.dropWhile isSchemeChar).head? == some ':'
  | [] => false

/-- Refuses methods that are no tokens, then URLs that name no host, then to connect. -/
def unconnected : Transport := fun _ request =>
  if !isMethod request.method then .error (.invalidMethod request.method)
  else if !hasScheme request.url then
    .error (.failed request.url "builder error: relative URL without a base")
  else .error (.failed request.url "error sending request")

end Transport
end HttpSuite
