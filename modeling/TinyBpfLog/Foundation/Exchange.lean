import Mathlib.Data.List.Basic

/-!
# Request/reply clients

A client that talks to a server over one connection, waiting for the reply to
each request before it goes on, is a tree: it is done, or it sends a request
and continues with what its read returns.  `serve` runs such a client against
a server that has no other connection in the meantime.
-/

namespace TinyBpfLog.Foundation

inductive Exchange (Req Resp Err : Type) (α : Type) : Type where
  | done (result : α)
  | send (request : Req) (next : Except Err Resp → Exchange Req Resp Err α)

namespace Exchange

variable {Req Resp Err : Type} {α β : Type}

def bind : Exchange Req Resp Err α → (α → Exchange Req Resp Err β) →
    Exchange Req Resp Err β
  | .done result, f => f result
  | .send request next, f => .send request fun reply => (next reply).bind f

instance : Monad (Exchange Req Resp Err) where
  pure := .done
  bind := bind

@[simp] theorem pure_eq (result : α) :
    (pure result : Exchange Req Resp Err α) = .done result := rfl

@[simp] theorem done_bind (result : α) (f : α → Exchange Req Resp Err β) :
    (Exchange.done result >>= f) = f result := rfl

@[simp] theorem send_bind (request : Req)
    (next : Except Err Resp → Exchange Req Resp Err α)
    (f : α → Exchange Req Resp Err β) :
    (Exchange.send request next >>= f) =
      .send request fun reply => next reply >>= f := rfl

/--
Run a client to its end.  A server that answers a request with nothing leaves
the client in its read for ever, which is the result `none`.
-/
def serve {Fault S : Type} (handle : S → Req → Except Fault (Option Resp × S)) :
    Exchange Req Resp Err α → S → Except Fault (Option α × S)
  | .done result, s => .ok (some result, s)
  | .send request next, s =>
      match handle s request with
      | .error fault => .error fault
      | .ok (none, s) => .ok (none, s)
      | .ok (some reply, s) => (next (.ok reply)).serve handle s

section Serve

variable {Fault S : Type} {handle : S → Req → Except Fault (Option Resp × S)}

@[simp] theorem serve_done (result : α) (s : S) :
    (Exchange.done result : Exchange Req Resp Err α).serve handle s =
      .ok (some result, s) := rfl

theorem serve_send_reply {request : Req}
    {next : Except Err Resp → Exchange Req Resp Err α} {s s' : S} {reply : Resp}
    (h : handle s request = .ok (some reply, s')) :
    (Exchange.send request next).serve handle s =
      (next (.ok reply)).serve handle s' := by
  simp only [serve, h]

end Serve

end Exchange

end TinyBpfLog.Foundation
