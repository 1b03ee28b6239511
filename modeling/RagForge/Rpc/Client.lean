import RagForge.Auth.Envelope
import RagForge.Sequence.Slots

/-
The multiplexed RPC client of the services.

One event loop runs all calls.  Between two awaits nothing else runs, so a step takes one task from
one await to the next.  The outside decides which await comes back, whether it raises, when a
timeout fires, when a task is cancelled and which messages arrive.  A waiter is known by the task
of the request that registered it.  The gauges and the thread bridge are left out.
-/

namespace RagForge.Rpc

open Auth (Numbers Primitives Identity attachInternalAuthContext verifyFromEnvelope)
open JsonText (Doc Object)
open Py (Dict)

variable {β ν : Type}

/-! ## Calls and tasks -/

/-- What the client is made with, and the libraries it calls. -/
structure Settings (β ν : Type) where
  numbers : Numbers ν
  primitives : Primitives β ν
  secret : String
  maxInflight : Int
  streamBufferSize : Int
  streamRoutingKey : String
  /-- The identifiers `uuid4` gives, which never repeat. -/
  uuid : Nat → String
  uuid_injective : Function.Injective uuid

/-- `asyncio.Semaphore(max(1, max_inflight))`. -/
def Settings.capacity (c : Settings β ν) : Nat := (max 1 c.maxInflight).toNat

/-- What is raised in a task. -/
inductive Fault
  | runtime (text : String)
  | timeout (text : String)
  | auth (e : Auth.Err)
  /-- The broker's library raised, or an assertion failed. -/
  | transport
  /-- The stream callback raised. -/
  | callback

inductive Outcome (ν : Type)
  | returned
  | reply (payload : Object ν)
  | raised (fault : Fault)
  | cancelled

/-- The arguments of `request` and `publish`.  `seconds` is the timeout as the message shows it. -/
structure Call (ν : Type) where
  routingKey : String
  envelope : Object ν
  identity : Option Identity := none
  required : Bool := false
  ttlSeconds : Int := 60
  jti : String := ""
  streams : Bool := false
  seconds : String := ""

inductive Job (ν : Type)
  | request (call : Call ν)
  | publish (call : Call ν)
  | connect
  | close

def Job.isRequest : Job ν → Bool
  | .request _ => true
  | _ => false

inductive Future (ν : Type)
  | pending
  | result (payload : Object ν)
  | failed (fault : Fault)
  | cancelled

def Future.payload? : Future ν → Option (Object ν)
  | .result payload => some payload
  | _ => none

def Future.isPending : Future ν → Bool
  | .pending => true
  | _ => false

/-- `set_exception`, unless the future is done. -/
def Future.fail (f : Future ν) (fault : Fault) : Future ν :=
  if f.isPending then .failed fault else f

/-- How a stream task ended. -/
inductive Ending
  | returned
  | raised
  | cancelled

/-- `_run_stream`, at the await it stands at. -/
inductive Stream (ν : Type)
  | idle
  | calling (event : Object ν)
  | ended (how : Ending)

def Stream.done : Stream ν → Bool
  | .ended _ => true
  | _ => false

/-- The awaits of `_ensure_resources`. -/
inductive Setup
  | lock
  | connecting
  | channel
  | exchange
  | queue
  | bind
  | consume

/-- The awaits of `close`. -/
inductive Closing
  | gathering (streams : List Nat) (cancelled : Bool)
  | consumer
  | channel
  | connection

inductive Phase (ν : Type)
  | acquiring
  /-- It runs, and has not come to its next await. -/
  | running
  | setup (stage : Setup)
  | sending
  | awaiting
  /-- The reply is there and the stream task has some time to end. -/
  | draining
  /-- The stream task is cancelled and awaited. -/
  | stopping (cancelled : Bool)
  /-- The `finally` block awaits the stream task it cancelled. -/
  | finalizing (outcome : Outcome ν) (cancelled : Bool)
  | closing (stage : Closing)
  | done (outcome : Outcome ν)

/-- The waiter of the task is in the table, unless `close` has cleared it. -/
def Phase.waits : Phase ν → Bool
  | .sending | .awaiting | .draining | .stopping _ => true
  | _ => false

def Phase.isDone : Phase ν → Bool
  | .done _ => true
  | _ => false

structure Task (ν : Type) where
  job : Job ν
  phase : Phase ν
  /-- It has a permit of the semaphore. -/
  permit : Bool := false
  correlationId : Option String := none
  future : Future ν := .pending
  stream : Option (Stream ν) := none
  cancelRequested : Bool := false
  queue : List (Object ν) := []
  /-- The events its callback was given. -/
  handed : List (Object ν) := []

/-- The stream events delivered to the waiter, in order. -/
def Task.events (t : Task ν) : List (Object ν) := t.handed ++ t.queue

/-- `waiter.stream_task.cancel()`, when there is a stream task and it is not done. -/
def Task.cancelStream (t : Task ν) : Task ν :=
  match t.stream with
  | none | some (.ended _) => t
  | some _ => { t with cancelRequested := true }

inductive Link
  | up
  | down
  deriving DecidableEq

structure State (ν : Type) where
  closed : Bool
  connection : Option Link
  channel : Option Link
  exchange : Bool
  /-- The name of the reply queue. -/
  replyQueue : Option String
  consumerTag : Bool
  lock : Option Nat
  permits : Nat
  waiters : Dict String Nat
  /-- How many identifiers were drawn. -/
  drawn : Nat
  published : List (String × Object ν)
  tasks : List (Task ν)

def initial (c : Settings β ν) : State ν where
  closed := false
  connection := none
  channel := none
  exchange := false
  replyQueue := none
  consumerTag := false
  lock := none
  permits := c.capacity
  waiters := []
  drawn := 0
  published := []
  tasks := []

namespace State

def put (s : State ν) (i : Nat) (t : Task ν) : State ν := { s with tasks := s.tasks.set i t }

/-- The connection, the channel, the exchange and the reply queue are all there and open. -/
def ready (s : State ν) : Bool :=
  s.connection = some .up && s.channel = some .up && s.exchange && s.replyQueue.isSome

end State

/-! ## The `finally` block of a request -/

section Finally

variable (s : State ν) (i : Nat) (t : Task ν)

def popWaiter : State ν :=
  match t.correlationId with
  | some cid =>
    if s.waiters.get? cid = some i then { s with waiters := s.waiters.erase cid } else s
  | none => s

def cancelFuture : Task ν :=
  { t with future := if t.future.isPending then .cancelled else t.future }

/-- `self._inflight.release()`, the last thing a request does. -/
def release (o : Outcome ν) : State ν :=
  { s with permits := s.permits + 1 }.put i { t with permit := false, phase := .done o }

def finish (o : Outcome ν) : State ν :=
  let s := popWaiter s i t
  let t := cancelFuture t
  match t.stream with
  | none | some (.ended _) => release s i t o
  | some _ => s.put i { t with cancelRequested := true, phase := .finalizing o false }

/-- A task that leaves what it does: only a request has a `finally` block. -/
def leave (o : Outcome ν) : State ν :=
  if t.job.isRequest then finish s i t o else s.put i { t with phase := .done o }

end Finally

/-! ## Lazy setup -/

section Setup

variable (c : Settings β ν) (s : State ν) (i : Nat) (t : Task ν)

/-- The body of a request: `correlation_id`, `reply_to` and `stream_to` are set, then it is
signed. -/
def requestBody (call : Call ν) (cid replyTo : String) (now : Int) : Except Auth.Err (Object ν) :=
  let body := Auth.setValue call.envelope "correlation_id" (.str cid) rfl
  let body := Auth.setValue body "reply_to" (.str replyTo) rfl
  let body := if call.streams then
      Auth.setValue body "stream_to" (.str c.streamRoutingKey) rfl
    else body
  attachInternalAuthContext c.numbers c.primitives body call.identity c.secret call.required
    call.ttlSeconds now call.jti

def register (call : Call ν) (now : Int) : State ν :=
  match s.replyQueue with
  | none => finish s i t (.raised .transport)
  | some replyTo =>
    let cid := c.uuid s.drawn
    let s := { s with drawn := s.drawn + 1 }
    match requestBody c call cid replyTo now with
    | .error e => finish s i t (.raised (.auth e))
    | .ok body =>
      { s with
        waiters := s.waiters.set cid i
        published := s.published ++ [(call.routingKey, body)] }.put i
        { t with
          correlationId := some cid
          stream := if call.streams then some .idle else none
          phase := .sending }

/-- What the caller of `_ensure_resources` does once it has returned. -/
def proceed (now : Int) : State ν :=
  match t.job with
  | .request call => register c s i t call now
  | .publish call =>
    match attachInternalAuthContext c.numbers c.primitives call.envelope call.identity c.secret
      call.required call.ttlSeconds now call.jti with
    | .error e => s.put i { t with phase := .done (.raised (.auth e)) }
    | .ok body =>
      { s with published := s.published ++ [(call.routingKey, body)] }.put i
        { t with phase := .sending }
  | .connect | .close => s.put i { t with phase := .done .returned }

/-- The body of `async with self._resource_lock`, from the moment the lock is taken. -/
def locked (now : Int) : State ν :=
  if s.closed then leave s i t (.raised (.runtime "RabbitMQ RPC client is closed"))
  else if s.ready then proceed c s i t now
  else if s.connection = some .up then
    { s with lock := some i }.put i { t with phase := .setup .channel }
  else { s with lock := some i }.put i { t with phase := .setup .connecting }

def lockWanted : Bool :=
  s.tasks.any fun t => match t.phase with
    | .setup .lock => true
    | _ => false

/-- `_ensure_resources`.  A lock that is free and that nobody waits for is taken at once. -/
def ensureResources (now : Int) : State ν :=
  if s.closed then leave s i t (.raised (.runtime "RabbitMQ RPC client is closed"))
  else if s.ready then proceed c s i t now
  else if s.lock.isNone && !lockWanted s then locked c s i t now
  else s.put i { t with phase := .setup .lock }

/-- An await of `_ensure_resources` comes back.  Only the connection and, at the end, the rest is
stored. -/
def advance (now : Int) (name : String) : Setup → Option (State ν)
  | .lock => if s.lock.isNone then some (locked c s i t now) else none
  | .connecting =>
    some ({ s with connection := some .up }.put i { t with phase := .setup .channel })
  | .channel => some (s.put i { t with phase := .setup .exchange })
  | .exchange => some (s.put i { t with phase := .setup .queue })
  | .queue => some (s.put i { t with phase := .setup .bind })
  | .bind => some (s.put i { t with phase := .setup .consume })
  | .consume => some (proceed c
      { s with
        channel := some .up
        exchange := true
        replyQueue := some name
        consumerTag := true
        lock := none } i t now)

end Setup

section Closing

variable (s : State ν) (i : Nat) (t : Task ν)

/-- An await of `_ensure_resources` raises, or the task is cancelled there. -/
def abandon (o : Outcome ν) : State ν :=
  leave { s with lock := if s.lock = some i then none else s.lock } i t o

/-! ## Closing -/

/-- The rest of `close` after the links are closed. -/
def forget : State ν :=
  { s with
    consumerTag := false
    replyQueue := none
    exchange := false
    channel := none
    connection := none }.put i { t with phase := .done .returned }

def closeConnection : State ν :=
  if s.connection = some .up then s.put i { t with phase := .closing .connection }
  else forget s i t

def closeChannel : State ν :=
  if s.channel = some .up then s.put i { t with phase := .closing .channel }
  else closeConnection s i t

def cancelConsumer : State ν :=
  if s.replyQueue.isSome && s.consumerTag then s.put i { t with phase := .closing .consumer }
  else closeChannel s i t

/-- What `close` does to a waiter it took from the table. -/
def failWaiter : Task ν :=
  { t with future := t.future.fail (.runtime "RabbitMQ RPC client closed") }.cancelStream

def registered : List Nat := s.waiters.map Prod.snd

def afterClose (s : State ν) (j : Nat) (t : Task ν) : Task ν :=
  if j ∈ registered s then failWaiter t else t

def streamTasks : List Nat :=
  (registered s).filter fun j => match s.tasks[j]? with
    | some t => t.stream.isSome
    | none => false

/-- The part of `close` that runs at once: the table is taken and cleared, and its waiters fail. -/
def failAll : State ν :=
  { s with closed := true, tasks := s.tasks.mapIdx (afterClose s), waiters := [] }

def spawn : State ν := { s with tasks := s.tasks ++ [t] }

/-- `close`, up to its first await. -/
def beginClose : State ν :=
  let t : Task ν := { job := .close, phase := .running }
  let i := s.tasks.length
  let streams := streamTasks s
  let s := spawn (failAll s) t
  if streams.isEmpty then cancelConsumer s i t
  else s.put i { t with phase := .closing (.gathering streams false) }

def streamDone (j : Nat) : Bool :=
  match s.tasks[j]? with
  | some t => t.stream.all Stream.done
  | none => true

/-- An await of `close` comes back; what the links raise is suppressed. -/
def advanceClose : Closing → Option (State ν)
  | .gathering streams cancelled =>
    if streams.all (streamDone s) then
      some (if cancelled then s.put i { t with phase := .done .cancelled }
        else cancelConsumer s i t)
    else none
  | .consumer => some (closeChannel s i t)
  | .channel => some (closeConnection s i t)
  | .connection => some (forget s i t)

end Closing

/-! ## Messages -/

/-- A message of the reply queue; the body is `none` when it is not a JSON object. -/
structure Message (ν : Type) where
  correlationId : Option String
  body : Option (Object ν)

section Dispatch

variable (c : Settings β ν)

/-- `str(message.correlation_id or payload.get("correlation_id") or "")`. -/
def correlationOf (m : Message ν) (payload : Object ν) : String :=
  match m.correlationId with
  | some cid =>
    if cid = "" then Auth.requiredText c.numbers c.primitives payload.val "correlation_id"
    else cid
  | none => Auth.requiredText c.numbers c.primitives payload.val "correlation_id"

/-- `queue.full()`: a bound of zero or less is no bound. -/
def queueFull (t : Task ν) : Bool :=
  decide (0 < c.streamBufferSize) && decide (c.streamBufferSize ≤ t.queue.length)

variable [DecidableEq β]

/-- What a payload does to the waiter it is for. -/
def receive (t : Task ν) (payload : Object ν) (now : Int) : Task ν :=
  match verifyFromEnvelope c.numbers c.primitives c.secret true now payload with
  | .error e => { t with future := t.future.fail (.auth e) }
  | .ok _ =>
    if Auth.isText (Dict.get? payload.val "message_type") "stream_event" then
      if t.stream.isNone then t
      else if queueFull c t then
        { t with future := t.future.fail (.runtime "RabbitMQ RPC stream buffer is full") }
      else { t with queue := t.queue ++ [payload] }
    else if t.future.isPending then { t with future := .result payload }
    else t

def onMessage (s : State ν) (m : Message ν) (now : Int) : State ν :=
  match m.body with
  | none => s
  | some payload =>
    match s.waiters.get? (correlationOf c m payload) with
    | none => s
    | some i =>
      match s.tasks[i]? with
      | none => s
      | some t => s.put i (receive c t payload now)

end Dispatch

/-! ## Steps -/

/-- What the outside does to a task. -/
inductive Signal
  /-- The semaphore gives it a permit. -/
  | acquired
  /-- What it awaits in the setup, in a publishing or in `close` comes back, or raises. -/
  | back (name : String)
  | raises
  /-- The future it awaits is done. -/
  | resumed
  /-- The stream task it awaits is done. -/
  | streamEnded
  | timeout
  | cancel
  /-- Its stream task gets the next event. -/
  | take
  | callbackReturns
  | callbackRaises
  /-- The cancellation reaches its stream task, or the callback swallows it. -/
  | streamCancelled
  | swallowed

/-- `event["payload"]["event_type"]` says that the stream is over. -/
def isLast (event : Object ν) : Bool :=
  match Dict.get? event.val "payload" with
  | some (.obj fields) =>
    Auth.isText (Dict.get? fields "event_type") "llm.done" ||
      Auth.isText (Dict.get? fields "event_type") "llm.error"
  | _ => false

section Signals

variable (s : State ν) (i : Nat) (t : Task ν)

def timeoutText : String :=
  match t.job with
  | .request call | .publish call =>
    s!"RabbitMQ RPC timeout waiting for '{call.routingKey}' after {call.seconds}s"
  | _ => ""

def sent : State ν :=
  if t.job.isRequest then s.put i { t with phase := .awaiting }
  else s.put i { t with phase := .done .returned }

def replyOf : Outcome ν :=
  match t.future with
  | .result payload => .reply payload
  | .failed fault => .raised fault
  | .pending | .cancelled => .cancelled

/-- A request goes on after `await asyncio.shield(waiter.future)`. -/
def resume : Option (State ν) :=
  match t.future with
  | .pending | .cancelled => none
  | .failed fault => some (finish s i t (.raised fault))
  | .result payload =>
    if t.stream.isNone then some (finish s i t (.reply payload))
    else some (s.put i { t with phase := .draining })

def drained (how : Ending) : Option (State ν) :=
  match t.phase with
  | .draining =>
    some (finish s i t (match how with
      | .returned => replyOf t
      | .raised => .raised .callback
      | .cancelled => .cancelled))
  | .stopping cancelled => some (finish s i t (if cancelled then .cancelled else replyOf t))
  | .finalizing o cancelled =>
    -- the cancellation is raised out of the `finally` block, before the permit is given back
    some (if cancelled then s.put i { t with phase := .done .cancelled } else release s i t o)
  | _ => none

/-- A cancellation is raised at the await the task stands at; an `asyncio.gather` raises it when
the tasks it awaits are done. -/
def cancel : Option (State ν) :=
  match t.phase with
  | .acquiring => some (s.put i { t with phase := .done .cancelled })
  | .running => none
  | .setup _ => some (abandon s i t .cancelled)
  | .sending | .awaiting | .draining => some (leave s i t .cancelled)
  | .stopping _ => some (s.put i { t with phase := .stopping true })
  | .finalizing o _ => some (s.put i { t with phase := .finalizing o true })
  | .closing (.gathering streams _) =>
    some (s.put i { t with phase := .closing (.gathering streams true) })
  | .closing _ => some (s.put i { t with phase := .done .cancelled })
  | .done _ => none

end Signals

section Step

variable (c : Settings β ν)

def signal (s : State ν) (i : Nat) (t : Task ν) (now : Int) : Signal → Option (State ν)
  | .acquired =>
    match t.phase with
    | .acquiring =>
      if 0 < s.permits then
        let t := { t with permit := true, phase := .running }
        some (ensureResources c ({ s with permits := s.permits - 1 }.put i t) i t now)
      else none
    | _ => none
  | .back name =>
    match t.phase with
    | .setup stage => advance c s i t now name stage
    | .sending => some (sent s i t)
    | .closing stage => advanceClose s i t stage
    | _ => none
  | .raises =>
    match t.phase with
    | .setup .lock => none
    | .setup _ => some (abandon s i t (.raised .transport))
    | .sending => some (leave s i t (.raised .transport))
    | _ => none
  | .resumed =>
    match t.phase with
    | .awaiting => resume s i t
    | _ => none
  | .streamEnded =>
    match t.stream with
    | some (.ended how) => drained s i t how
    | _ => none
  | .timeout =>
    match t.phase with
    | .awaiting => some (finish s i t (.raised (.timeout (timeoutText t))))
    | .draining => some (s.put i { t.cancelStream with phase := .stopping false })
    | _ => none
  | .cancel => cancel s i t
  | .take =>
    match t.stream, t.queue, t.cancelRequested with
    | some .idle, event :: rest, false =>
      some (s.put i { t with
        stream := some (.calling event), queue := rest, handed := t.handed ++ [event] })
    | _, _, _ => none
  | .callbackReturns =>
    match t.stream, t.cancelRequested with
    | some (.calling event), false =>
      some (s.put i { t with
        stream := some (if isLast event then .ended .returned else .idle) })
    | _, _ => none
  | .callbackRaises =>
    match t.stream with
    | some (.calling _) => some (s.put i { t with stream := some (.ended .raised) })
    | _ => none
  | .streamCancelled =>
    match t.stream, t.cancelRequested with
    | some (.ended _), _ => none
    | some _, true => some (s.put i { t with stream := some (.ended .cancelled) })
    | _, _ => none
  | .swallowed =>
    match t.stream, t.cancelRequested with
    | some (.calling _), true => some (s.put i { t with cancelRequested := false })
    | _, _ => none

inductive Event (ν : Type)
  | request (call : Call ν)
  | publish (call : Call ν)
  | connect
  | close
  | message (m : Message ν)
  | connectionLost
  | channelLost
  | signal (i : Nat) (what : Signal)

variable [DecidableEq β]

/-- One step at a time of the clock. -/
def step (s : State ν) (now : Int) : Event ν → Option (State ν)
  | .request call => some (spawn s { job := .request call, phase := .acquiring })
  | .publish call =>
    let t : Task ν := { job := .publish call, phase := .running }
    some (ensureResources c (spawn s t) s.tasks.length t now)
  | .connect =>
    let t : Task ν := { job := .connect, phase := .running }
    some (ensureResources c (spawn { s with closed := false } t) s.tasks.length t now)
  | .close => some (beginClose s)
  | .message m => some (onMessage c s m now)
  | .connectionLost => some { s with connection := s.connection.map fun _ => .down }
  | .channelLost => some { s with channel := s.channel.map fun _ => .down }
  | .signal i what =>
    match s.tasks[i]? with
    | some t => signal c s i t now what
    | none => none

def run (s : State ν) : List (Int × Event ν) → Option (State ν)
  | [] => some s
  | (now, e) :: rest => (step c s now e).bind fun s => run s rest

end Step

end RagForge.Rpc
