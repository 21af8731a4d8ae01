import GatewayLedger.Exchange.Reply

/-!
# Scripted exchanges

An exchange whose answers are laid down beforehand. A route names a method and the end of a path,
and the first route that fits a request answers it: one answer after the other, and the last one for
ever. A request that no route fits is answered with an empty list.
-/

namespace GatewayLedger

structure Answer where
  delay : Nat
  delivery : Delivery

structure Route where
  method : String
  ending : String
  answers : List Answer

abbrev Script := List Route

namespace Answer

def emptyList : Answer := ⟨0, .reply { body := Text.encodeUtf8 "[]" }⟩

end Answer

namespace Route

/-- The path of a request with all that stands before it. -/
def location (r : Request) : String := String.ofList (r.url.toList.takeWhile (· != '?'))

def fits (route : Route) (r : Request) : Bool :=
  route.method == r.endpoint.method.name && (location r).endsWith route.ending

def next (route : Route) : Answer × Route :=
  match route.answers with
  | [] => (Answer.emptyList, route)
  | [a] => (a, route)
  | a :: rest => (a, { route with answers := rest })

end Route

namespace Script

def answer (script : Script) (r : Request) : Answer × Script :=
  match script with
  | [] => (Answer.emptyList, [])
  | route :: rest =>
    if route.fits r then
      let (a, route) := route.next
      (a, route :: rest)
    else
      let (a, rest) := answer rest r
      (a, route :: rest)

end Script

end GatewayLedger
