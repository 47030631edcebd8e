import SharedWatch.Hub.Basic

/-!
# Making, starting and stopping streams

A stream that starts gets a loop; a stream that stops counts as one running loop less, unless it
had never started.
-/

namespace SharedWatch.Hub

/-- Makes a stream: its number. -/
def createStream (h : Hub) (key : ObjectKey) (policy : RetryPolicy) (issuer : Option Nat) :
    Nat × Hub :=
  (h.streams.length, { h with streams := h.streams ++ [{ key, policy, issuer }] })

/-- Adds a loop for a stream, which stops when `parent` fires. -/
def addLoop (h : Hub) (n : Nat) (policy : RetryPolicy) (parent : Nat) : Hub :=
  let (ticket, h) := h.takeTicket
  let loop : Loop :=
    { id := h.started, stream := n, parent, backoff := { policy }, since := ticket, ticket }
  { h with loops := h.loops ++ [loop], started := h.started + 1 }

/-- Starts a stream, which stops when `parent` fires; a running stream is left alone. -/
def startStream (h : Hub) (n parent : Nat) : Except WatchError Unit × Hub :=
  match h.streams[n]? with
  | none => (.ok (), h)
  | some st => match st.start? with
    | .error e => (.error e, h)
    | .ok none => (.ok (), h)
    | .ok (some st') =>
      let h := (h.updateStream n fun _ => st').addActive 1
      (.ok (), (h.say .info "starting watch stream").addLoop n st.policy parent)

/-- Stops a stream without a word: whether it was this call that stopped it. -/
def haltStream (h : Hub) (n : Nat) : Bool × Hub :=
  match h.streams[n]? with
  | none => (false, h)
  | some st =>
    if st.isStopped then (false, h)
    else
      let h := h.updateStream n (·.halt)
      (true, if st.state = .created then h else h.addActive (-1))

/-- Stops a stream: whether it was this call that stopped it. -/
def stopStream (h : Hub) (n : Nat) : Bool × Hub :=
  let (stopped, h) := h.haltStream n
  (stopped, if stopped then h.say .info "watch stream stopped" else h)

end SharedWatch.Hub
