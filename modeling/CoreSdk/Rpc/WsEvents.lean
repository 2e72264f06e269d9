import Mathlib.Logic.Function.Basic
import CoreSdk.Go.Chan
import CoreSdk.Go.Schedule

/-!
# Event subscriptions over the websocket

`WSEvents` (`types/rpc/ws_client.go`) keeps one channel for each query:
`Subscribe` makes a channel and files it under the query, `Unsubscribe` and
`UnsubscribeAll` take queries out, and the event listener hands each event to
the channel filed under the event's query while it holds the read lock. On an
unbuffered channel it waits for the reader, still holding the lock; on a
buffered one it drops the event when the buffer is full. `rpcClient.SubscribeAny`
(`client/rpc_client.go`) subscribes with an unbuffered channel under a fresh
subscriber id, and reads the channel in a goroutine of its own.

Over every interleaving, a subscriber reads only events of the query it
subscribed with (`subscribe_reads_only_its_query`). But `Subscribe` does not
read its subscriber: the map is keyed by the query alone, so a later
`Subscribe` or `Unsubscribe` of the same query, whoever makes it, unfiles the
channel, and the goroutine of the first `SubscribeAny` then waits on it for
ever (`subscribeAny_same_query_starves_first`).

The model lets the listener take responses and the subscribers read whether
the service runs or not, and a stopped service start again, which only adds
runs: what holds of every run here holds of the runs the code makes.
-/

namespace CoreSdk.Rpc

open Go

set_option autoImplicit false

/-- `errNotRunning`. -/
def errNotRunning : String := "client is not running. Use .Start() method to start"

/-- `ctypes.ResultEvent`: the query it answers and what it carries. -/
structure ResultEvent (α : Type) where
  query : String
  data : α

/-- What the event listener takes from `ws.ResponsesCh`. -/
inductive Response (α : Type) where
  /-- `resp.Error != nil` -/
  | failed (err : String)
  /-- `tmjson.Unmarshal` of the result fails -/
  | undecodable
  | event (result : ResultEvent α)

/-- `WSEvents`: whether the service runs, the channel filed under each query
(by number), every channel made so far, and the send the event listener is
blocked in, on an unbuffered channel. -/
structure WSEvents (α : Type) where
  running : Bool
  subscriptions : String → Option Nat
  chans : Nat → Chan (ResultEvent α)
  made : Nat
  pending : Option (Nat × ResultEvent α)

namespace WSEvents

variable {α : Type}

/-- `newWSEvents`: not started, no subscription. -/
def newWSEvents : WSEvents α := ⟨false, fun _ => none, fun _ => Chan.make 0, 0, none⟩

/-- `w.mtx.Lock()` before a change of the map: it waits while the listener
holds the read lock, blocked in a send on an unbuffered channel. -/
def locked {β : Type} (w : WSEvents α) (done : β) : Option β :=
  match w.pending with
  | some _ => none
  | none => some done

/-- `WSEvents.Subscribe`, after `ws.Subscribe` returned `sent`: the number of
the channel it makes, or the error; `none` while it waits for the lock. -/
def subscribe (w : WSEvents α) (_subscriber query : String) (outCapacity : List Nat)
    (sent : Option String) : Option (Except String Nat × WSEvents α) :=
  if !w.running then some (.error errNotRunning, w)
  else match sent with
    | some err => some (.error err, w)
    | none =>
        let outCap := outCapacity.head?.getD 1
        -- the subscriber is not read: the query alone keys the map
        w.locked (.ok w.made, { w with
          chans := Function.update w.chans w.made (Chan.make outCap)
          made := w.made + 1
          subscriptions := Function.update w.subscriptions query (some w.made) })

/-- `WSEvents.Unsubscribe`, after `ws.Unsubscribe` returned `sent`. -/
def unsubscribe (w : WSEvents α) (_subscriber query : String) (sent : Option String) :
    Option (Option String × WSEvents α) :=
  if !w.running then some (some errNotRunning, w)
  else match sent with
    | some err => some (some err, w)
    | none =>
        w.locked <|
          match w.subscriptions query with
          | some _ => (none, { w with subscriptions := Function.update w.subscriptions query none })
          | none => (none, w)

/-- `WSEvents.UnsubscribeAll`, after `ws.UnsubscribeAll` returned `sent`. -/
def unsubscribeAll (w : WSEvents α) (_subscriber : String) (sent : Option String) :
    Option (Option String × WSEvents α) :=
  if !w.running then some (some errNotRunning, w)
  else match sent with
    | some err => some (some err, w)
    | none => w.locked (none, { w with subscriptions := fun _ => none })

/-- One turn of `eventListener` on a response, or `none` while it is blocked
in a send. -/
def listen (w : WSEvents α) (resp : Response α) : Option (WSEvents α) :=
  match w.pending with
  | some _ => none
  | none =>
      match resp with
      -- resubscribes over the network, or not; the map is read only
      | .failed _ => some w
      | .undecodable => some w
      | .event result =>
          match w.subscriptions result.query with
          | none => some w
          | some out =>
              if (w.chans out).cap = 0 then some { w with pending := some (out, result) }
              else
                match (w.chans out).send result with
                | some ch => some { w with chans := Function.update w.chans out ch }
                -- the out channel is full: the event is dropped
                | none => some w

/-- A subscriber's `<-out`: the event the listener hands over on an unbuffered
channel, or the oldest of a buffer; `none` while it blocks. -/
def read (w : WSEvents α) (out : Nat) : Option (ResultEvent α × WSEvents α) :=
  match w.pending with
  | some (target, result) =>
      if target = out then some (result, { w with pending := none })
      else ((w.chans out).recv).map fun received =>
        (received.1, { w with chans := Function.update w.chans out received.2 })
  | none =>
      ((w.chans out).recv).map fun received =>
        (received.1, { w with chans := Function.update w.chans out received.2 })

/-- What happens next: a call of a method, the service started or stopped,
the listener taking a response, a subscriber reading its channel. -/
inductive Call (α : Type) where
  | start
  | stop
  | subscribe (subscriber query : String) (outCapacity : List Nat) (sent : Option String)
  | unsubscribe (subscriber query : String) (sent : Option String)
  | unsubscribeAll (subscriber : String) (sent : Option String)
  | response (resp : Response α)
  | read (out : Nat)

/-- One step of an interleaving, or `none` when it cannot be taken. -/
def step (w : WSEvents α) : Call α → Option (WSEvents α)
  | .start => some { w with running := true }
  | .stop => some { w with running := false }
  | .subscribe subscriber query outCapacity sent =>
      (w.subscribe subscriber query outCapacity sent).map (·.2)
  | .unsubscribe subscriber query sent => (w.unsubscribe subscriber query sent).map (·.2)
  | .unsubscribeAll subscriber sent => (w.unsubscribeAll subscriber sent).map (·.2)
  | .response resp => w.listen resp
  | .read out => (w.read out).map (·.2)

/-- An interleaving, or `none` if one of its steps cannot be taken when it comes. -/
def run (w : WSEvents α) (calls : List (Call α)) : Option (WSEvents α) :=
  calls.foldlM step w

/-! ## What each call can do -/

theorem locked_eq_some {β : Type} {w : WSEvents α} {done r : β} (taken : w.locked done = some r) :
    w.pending = none ∧ r = done := by
  unfold locked at taken
  split at taken
  · cases taken
  · rename_i idle
    cases taken
    exact ⟨idle, rfl⟩

theorem subscribe_eq_some {w w' : WSEvents α} {subscriber query : String} {outCapacity : List Nat}
    {sent : Option String} {res : Except String Nat}
    (called : w.subscribe subscriber query outCapacity sent = some (res, w')) :
    (w' = w ∧ ∃ err, res = .error err) ∨
      (w.running = true ∧ sent = none ∧ w.pending = none ∧ res = .ok w.made ∧
        w' = { w with
          chans := Function.update w.chans w.made (Chan.make (outCapacity.head?.getD 1))
          made := w.made + 1
          subscriptions := Function.update w.subscriptions query (some w.made) }) := by
  unfold subscribe at called
  split_ifs at called with stopped
  · cases called
    exact .inl ⟨rfl, _, rfl⟩
  · cases sent with
    | some err =>
        cases called
        exact .inl ⟨rfl, _, rfl⟩
    | none =>
        obtain ⟨idle, made⟩ := locked_eq_some called
        cases made
        exact .inr ⟨by simpa using stopped, rfl, idle, rfl, rfl⟩

theorem unsubscribe_eq_some {w w' : WSEvents α} {subscriber query : String} {sent res : Option String}
    (called : w.unsubscribe subscriber query sent = some (res, w')) :
    (w' = w ∧ ∃ err, res = some err) ∨
      (w.running = true ∧ sent = none ∧ w.pending = none ∧ res = none ∧
        w' = { w with subscriptions := Function.update w.subscriptions query none }) := by
  unfold unsubscribe at called
  split_ifs at called with stopped
  · cases called
    exact .inl ⟨rfl, _, rfl⟩
  · cases sent with
    | some err =>
        cases called
        exact .inl ⟨rfl, _, rfl⟩
    | none =>
        obtain ⟨idle, taken⟩ := locked_eq_some called
        refine .inr ⟨by simpa using stopped, rfl, idle, ?_⟩
        split at taken
        · cases taken
          exact ⟨rfl, rfl⟩
        · rename_i absent
          cases taken
          -- deleting a query that is not there leaves the map as it is
          rw [Function.update_eq_self_iff.mpr absent.symm]
          exact ⟨rfl, rfl⟩

theorem unsubscribeAll_eq_some {w w' : WSEvents α} {subscriber : String} {sent res : Option String}
    (called : w.unsubscribeAll subscriber sent = some (res, w')) :
    (w' = w ∧ ∃ err, res = some err) ∨
      (w.running = true ∧ sent = none ∧ w.pending = none ∧ res = none ∧
        w' = { w with subscriptions := fun _ => none }) := by
  unfold unsubscribeAll at called
  split_ifs at called with stopped
  · cases called
    exact .inl ⟨rfl, _, rfl⟩
  · cases sent with
    | some err =>
        cases called
        exact .inl ⟨rfl, _, rfl⟩
    | none =>
        obtain ⟨idle, cleared⟩ := locked_eq_some called
        cases cleared
        exact .inr ⟨by simpa using stopped, rfl, idle, rfl, rfl⟩

theorem listen_eq_some {w w' : WSEvents α} {resp : Response α} (listened : w.listen resp = some w') :
    w.pending = none ∧
      (w' = w ∨
        ∃ result out, resp = .event result ∧ w.subscriptions result.query = some out ∧
          ((w.chans out).cap = 0 ∧ w' = { w with pending := some (out, result) } ∨
            (w.chans out).cap ≠ 0 ∧ ∃ ch, (w.chans out).send result = some ch ∧
              w' = { w with chans := Function.update w.chans out ch })) := by
  unfold listen at listened
  split at listened
  · cases listened
  · rename_i idle
    refine ⟨idle, ?_⟩
    split at listened
    · cases listened
      exact .inl rfl
    · cases listened
      exact .inl rfl
    · rename_i result
      split at listened
      · cases listened
        exact .inl rfl
      · rename_i out filed
        split_ifs at listened with unbuffered
        · cases listened
          exact .inr ⟨result, out, rfl, filed, .inl ⟨unbuffered, rfl⟩⟩
        · split at listened
          · rename_i ch sent
            cases listened
            exact .inr ⟨result, out, rfl, filed, .inr ⟨unbuffered, ch, sent, rfl⟩⟩
          · -- the event is dropped
            cases listened
            exact .inl rfl

theorem read_eq_some {w w' : WSEvents α} {out : Nat} {result : ResultEvent α}
    (taken : w.read out = some (result, w')) :
    (w.pending = some (out, result) ∧ w' = { w with pending := none }) ∨
      ∃ ch, (w.chans out).recv = some (result, ch) ∧
        w' = { w with chans := Function.update w.chans out ch } := by
  -- a receive from the buffer, wherever the listener is
  have fromBuffer : ((w.chans out).recv).map (fun received =>
      (received.1, { w with chans := Function.update w.chans out received.2 })) = some (result, w') →
      ∃ ch, (w.chans out).recv = some (result, ch) ∧
        w' = { w with chans := Function.update w.chans out ch } := by
    intro received
    obtain ⟨⟨v, ch⟩, fromChan, same⟩ := Option.map_eq_some_iff.mp received
    cases same
    exact ⟨ch, fromChan, rfl⟩
  unfold read at taken
  split at taken
  · rename_i target sent waiting
    split_ifs at taken with here
    · cases taken
      subst here
      exact .inl ⟨waiting, rfl⟩
    · exact .inr (fromBuffer taken)
  · exact .inr (fromBuffer taken)

/-- A `Subscribe` that returns is a step of an interleaving. -/
theorem step_of_subscribe {w w' : WSEvents α} {subscriber query : String} {outCapacity : List Nat}
    {sent : Option String} {res : Except String Nat}
    (called : w.subscribe subscriber query outCapacity sent = some (res, w')) :
    w.step (.subscribe subscriber query outCapacity sent) = some w' := by
  simp only [step, called, Option.map_some]

/-- An `Unsubscribe` that returns is a step of an interleaving. -/
theorem step_of_unsubscribe {w w' : WSEvents α} {subscriber query : String} {sent res : Option String}
    (called : w.unsubscribe subscriber query sent = some (res, w')) :
    w.step (.unsubscribe subscriber query sent) = some w' := by
  simp only [step, called, Option.map_some]

/-! ## What a step can do -/

/-- What a step can do to the map: every query it leaves filed was filed under
the same channel before, or files the channel the step made. -/
def FiledSince (w w' : WSEvents α) : Prop :=
  w.made ≤ w'.made ∧ ∀ query out, w'.subscriptions query = some out →
    w.subscriptions query = some out ∨ out = w.made ∧ w.made < w'.made

theorem FiledSince.of_eq {w w' : WSEvents α} (sameMap : w'.subscriptions = w.subscriptions)
    (sameMade : w'.made = w.made) : FiledSince w w' := by
  refine ⟨Nat.le_of_eq sameMade.symm, fun query out filed => .inl ?_⟩
  rw [← sameMap]
  exact filed

theorem step_filedSince {w w' : WSEvents α} {call : Call α} (stepped : w.step call = some w') :
    FiledSince w w' := by
  cases call with
  | start =>
      cases stepped
      exact FiledSince.of_eq rfl rfl
  | stop =>
      cases stepped
      exact FiledSince.of_eq rfl rfl
  | subscribe subscriber query outCapacity sent =>
      obtain ⟨⟨res, w''⟩, called, same⟩ := Option.map_eq_some_iff.mp stepped
      cases same
      rcases subscribe_eq_some called with ⟨rfl, -⟩ | ⟨-, -, -, -, rfl⟩
      · exact FiledSince.of_eq rfl rfl
      · refine ⟨Nat.le_succ _, fun query' out filed => ?_⟩
        dsimp only at filed
        rw [Function.update_apply] at filed
        split_ifs at filed
        · cases filed
          exact .inr ⟨rfl, Nat.lt_succ_self _⟩
        · exact .inl filed
  | unsubscribe subscriber query sent =>
      obtain ⟨⟨res, w''⟩, called, same⟩ := Option.map_eq_some_iff.mp stepped
      cases same
      rcases unsubscribe_eq_some called with ⟨rfl, -⟩ | ⟨-, -, -, -, rfl⟩
      · exact FiledSince.of_eq rfl rfl
      · refine ⟨Nat.le_refl _, fun query' out filed => ?_⟩
        dsimp only at filed
        rw [Function.update_apply] at filed
        -- the query taken out files nothing
        split_ifs at filed
        exact .inl filed
  | unsubscribeAll subscriber sent =>
      obtain ⟨⟨res, w''⟩, called, same⟩ := Option.map_eq_some_iff.mp stepped
      cases same
      rcases unsubscribeAll_eq_some called with ⟨rfl, -⟩ | ⟨-, -, -, -, rfl⟩
      · exact FiledSince.of_eq rfl rfl
      · exact ⟨Nat.le_refl _, fun _ _ filed => by cases filed⟩
  | response resp =>
      obtain ⟨-, unchanged | ⟨result, out, -, -, ⟨-, rfl⟩ | ⟨-, ch, -, rfl⟩⟩⟩ := listen_eq_some stepped
      · subst unchanged
        exact FiledSince.of_eq rfl rfl
      · exact FiledSince.of_eq rfl rfl
      · exact FiledSince.of_eq rfl rfl
  | read out =>
      obtain ⟨⟨result, w''⟩, taken, same⟩ := Option.map_eq_some_iff.mp stepped
      cases same
      rcases read_eq_some taken with ⟨-, rfl⟩ | ⟨ch, -, rfl⟩
      · exact FiledSince.of_eq rfl rfl
      · exact FiledSince.of_eq rfl rfl

/-- What a step can do to a channel already made: leave it, put an event
behind its buffer (the listener, on a buffered channel filed under the
event's query), or take the head of its buffer (a read). -/
theorem step_chan {w w' : WSEvents α} {call : Call α} (stepped : w.step call = some w') {out : Nat}
    (made : out < w.made) :
    w'.chans out = w.chans out ∨
      (∃ result, w.subscriptions result.query = some out ∧ (w.chans out).cap ≠ 0 ∧
        (w.chans out).send result = some (w'.chans out)) ∨
      ∃ result, (w.chans out).recv = some (result, w'.chans out) := by
  cases call with
  | start =>
      cases stepped
      exact .inl rfl
  | stop =>
      cases stepped
      exact .inl rfl
  | subscribe subscriber query outCapacity sent =>
      obtain ⟨⟨res, w''⟩, called, same⟩ := Option.map_eq_some_iff.mp stepped
      cases same
      rcases subscribe_eq_some called with ⟨rfl, -⟩ | ⟨-, -, -, -, rfl⟩
      · exact .inl rfl
      · -- the new channel is another one
        exact .inl (Function.update_of_ne (Nat.ne_of_lt made) _ _)
  | unsubscribe subscriber query sent =>
      obtain ⟨⟨res, w''⟩, called, same⟩ := Option.map_eq_some_iff.mp stepped
      cases same
      rcases unsubscribe_eq_some called with ⟨rfl, -⟩ | ⟨-, -, -, -, rfl⟩
      · exact .inl rfl
      · exact .inl rfl
  | unsubscribeAll subscriber sent =>
      obtain ⟨⟨res, w''⟩, called, same⟩ := Option.map_eq_some_iff.mp stepped
      cases same
      rcases unsubscribeAll_eq_some called with ⟨rfl, -⟩ | ⟨-, -, -, -, rfl⟩
      · exact .inl rfl
      · exact .inl rfl
  | response resp =>
      obtain ⟨-, unchanged | ⟨result, target, -, filed, ⟨-, rfl⟩ | ⟨buffered, ch, sent, rfl⟩⟩⟩ :=
        listen_eq_some stepped
      · subst unchanged
        exact .inl rfl
      · exact .inl rfl
      · by_cases here : out = target
        · subst here
          refine .inr (.inl ⟨result, filed, buffered, ?_⟩)
          dsimp only
          rw [Function.update_self]
          exact sent
        · exact .inl (Function.update_of_ne here _ _)
  | read target =>
      obtain ⟨⟨result, w''⟩, taken, same⟩ := Option.map_eq_some_iff.mp stepped
      cases same
      rcases read_eq_some taken with ⟨-, rfl⟩ | ⟨ch, fromChan, rfl⟩
      · exact .inl rfl
      · by_cases here : out = target
        · subst here
          refine .inr (.inr ⟨result, ?_⟩)
          dsimp only
          rw [Function.update_self]
          exact fromChan
        · exact .inl (Function.update_of_ne here _ _)

/-- What a step can do to the listener's send: leave it, end it (a read), or
begin one, on an unbuffered channel filed under the event's query. -/
theorem step_pending {w w' : WSEvents α} {call : Call α} (stepped : w.step call = some w') :
    w'.pending = w.pending ∨ w'.pending = none ∨
      ∃ out result, w.pending = none ∧ w.subscriptions result.query = some out ∧
        (w.chans out).cap = 0 ∧ w'.pending = some (out, result) := by
  cases call with
  | start =>
      cases stepped
      exact .inl rfl
  | stop =>
      cases stepped
      exact .inl rfl
  | subscribe subscriber query outCapacity sent =>
      obtain ⟨⟨res, w''⟩, called, same⟩ := Option.map_eq_some_iff.mp stepped
      cases same
      rcases subscribe_eq_some called with ⟨rfl, -⟩ | ⟨-, -, -, -, rfl⟩
      · exact .inl rfl
      · exact .inl rfl
  | unsubscribe subscriber query sent =>
      obtain ⟨⟨res, w''⟩, called, same⟩ := Option.map_eq_some_iff.mp stepped
      cases same
      rcases unsubscribe_eq_some called with ⟨rfl, -⟩ | ⟨-, -, -, -, rfl⟩
      · exact .inl rfl
      · exact .inl rfl
  | unsubscribeAll subscriber sent =>
      obtain ⟨⟨res, w''⟩, called, same⟩ := Option.map_eq_some_iff.mp stepped
      cases same
      rcases unsubscribeAll_eq_some called with ⟨rfl, -⟩ | ⟨-, -, -, -, rfl⟩
      · exact .inl rfl
      · exact .inl rfl
  | response resp =>
      obtain ⟨idle, unchanged | ⟨result, target, -, filed, ⟨unbuffered, rfl⟩ | ⟨-, ch, -, rfl⟩⟩⟩ :=
        listen_eq_some stepped
      · subst unchanged
        exact .inl rfl
      · exact .inr (.inr ⟨target, result, idle, filed, unbuffered, rfl⟩)
      · exact .inl rfl
  | read target =>
      obtain ⟨⟨result, w''⟩, taken, same⟩ := Option.map_eq_some_iff.mp stepped
      cases same
      rcases read_eq_some taken with ⟨-, rfl⟩ | ⟨ch, -, rfl⟩
      · exact .inr (.inl rfl)
      · exact .inl rfl

/-! ## Invariants over runs -/

section Invariants

variable {w w' : WSEvents α} {call : Call α} {calls : List (Call α)} {query : String} {out : Nat}

/-- Every query is filed under a channel already made. -/
def Tidy (w : WSEvents α) : Prop :=
  ∀ query out, w.subscriptions query = some out → out < w.made

theorem tidy_newWSEvents : (newWSEvents : WSEvents α).Tidy := by
  intro query out filed
  cases filed

theorem Tidy.step (tidy : w.Tidy) (stepped : w.step call = some w') : w'.Tidy := by
  obtain ⟨grows, filedSince⟩ := step_filedSince stepped
  intro query out filed
  rcases filedSince query out filed with before | ⟨rfl, madeNow⟩
  · exact Nat.lt_of_lt_of_le (tidy query out before) grows
  · exact madeNow

theorem Tidy.run (tidy : w.Tidy) (ran : w.run calls = some w') : w'.Tidy :=
  Go.run_invariant WSEvents.step Tidy (fun _ _ _ tidy stepped => tidy.step stepped)
    calls tidy ran

/-- Channel `out` is made, and filed under no query but `query`. -/
def OnlyUnder (w : WSEvents α) (query : String) (out : Nat) : Prop :=
  out < w.made ∧ ∀ query', w.subscriptions query' = some out → query' = query

theorem OnlyUnder.step (only : w.OnlyUnder query out) (stepped : w.step call = some w') :
    w'.OnlyUnder query out := by
  obtain ⟨made, under⟩ := only
  obtain ⟨grows, filedSince⟩ := step_filedSince stepped
  refine ⟨Nat.lt_of_lt_of_le made grows, fun query' filed => ?_⟩
  rcases filedSince query' out filed with before | ⟨fresh, -⟩
  · exact under query' before
  · -- a step files only the channel it makes, and `out` was made before
    exact absurd fresh (Nat.ne_of_lt made)

theorem OnlyUnder.run (only : w.OnlyUnder query out) (ran : w.run calls = some w') :
    w'.OnlyUnder query out :=
  Go.run_invariant WSEvents.step (fun w => w.OnlyUnder query out)
    (fun _ _ _ only stepped => only.step stepped) calls only ran

/-- A `Subscribe` that returns a channel files it under its query, and only there. -/
theorem onlyUnder_of_subscribe {subscriber : String} {outCapacity : List Nat} {sent : Option String}
    (tidy : w.Tidy) (called : w.subscribe subscriber query outCapacity sent = some (.ok out, w')) :
    w'.OnlyUnder query out := by
  rcases subscribe_eq_some called with ⟨-, err, failed⟩ | ⟨-, -, -, returned, rfl⟩
  · cases failed
  · cases returned
    refine ⟨Nat.lt_succ_self _, fun query' filed => ?_⟩
    dsimp only at filed
    rw [Function.update_apply] at filed
    split_ifs at filed with here
    · exact here
    · exact absurd (tidy query' w.made filed) (Nat.lt_irrefl _)

/-- Channel `out` is made and filed under no query. -/
def Orphaned (w : WSEvents α) (out : Nat) : Prop :=
  out < w.made ∧ ∀ query, w.subscriptions query ≠ some out

theorem Orphaned.step (orphaned : w.Orphaned out) (stepped : w.step call = some w') :
    w'.Orphaned out := by
  obtain ⟨made, unfiled⟩ := orphaned
  obtain ⟨grows, filedSince⟩ := step_filedSince stepped
  refine ⟨Nat.lt_of_lt_of_le made grows, fun query filed => ?_⟩
  rcases filedSince query out filed with before | ⟨fresh, -⟩
  · exact unfiled query before
  · exact absurd fresh (Nat.ne_of_lt made)

/-- Channel `out` is made unbuffered and stays empty: the listener never
sends into its buffer. -/
def Unbuffered (w : WSEvents α) (out : Nat) : Prop :=
  out < w.made ∧ (w.chans out).cap = 0 ∧ (w.chans out).buf = []

theorem Unbuffered.step (unbuffered : w.Unbuffered out) (stepped : w.step call = some w') :
    w'.Unbuffered out := by
  obtain ⟨made, noCap, empty⟩ := unbuffered
  have grows := (step_filedSince stepped).1
  refine ⟨Nat.lt_of_lt_of_le made grows, ?_⟩
  rcases step_chan stepped made with same | ⟨result, -, buffered, -⟩ | ⟨result, received⟩
  · rw [same]
    exact ⟨noCap, empty⟩
  · exact absurd noCap buffered
  · rw [(Chan.recv_eq_none_iff _).mpr empty] at received
    cases received

theorem Unbuffered.run (unbuffered : w.Unbuffered out) (ran : w.run calls = some w') :
    w'.Unbuffered out :=
  Go.run_invariant WSEvents.step (fun w => w.Unbuffered out)
    (fun _ _ _ unbuffered stepped => unbuffered.step stepped) calls unbuffered ran

/-- `Subscribe` with capacity zero makes an unbuffered channel. -/
theorem unbuffered_of_subscribe {subscriber : String} {sent : Option String}
    (called : w.subscribe subscriber query [0] sent = some (.ok out, w')) : w'.Unbuffered out := by
  rcases subscribe_eq_some called with ⟨-, err, failed⟩ | ⟨-, -, -, returned, rfl⟩
  · cases failed
  · cases returned
    refine ⟨Nat.lt_succ_self _, ?_⟩
    dsimp only
    rw [Function.update_self]
    exact ⟨rfl, rfl⟩

/-- Channel `out` is filed under no query and the listener is not sending on
it: nothing reaches it any more. -/
def Starved (w : WSEvents α) (out : Nat) : Prop :=
  w.Orphaned out ∧ ∀ result, w.pending ≠ some (out, result)

theorem Starved.step (starved : w.Starved out) (stepped : w.step call = some w') : w'.Starved out := by
  obtain ⟨orphaned, notSending⟩ := starved
  refine ⟨orphaned.step stepped, fun result sending => ?_⟩
  rcases step_pending stepped with same | ended | ⟨target, result', -, filed, -, started⟩
  · exact notSending result (same ▸ sending)
  · rw [ended] at sending
    cases sending
  · -- the listener sends only on a channel filed under a query
    rw [started] at sending
    cases sending
    exact orphaned.2 _ filed

theorem Starved.run (starved : w.Starved out) (ran : w.run calls = some w') : w'.Starved out :=
  Go.run_invariant WSEvents.step (fun w => w.Starved out)
    (fun _ _ _ starved stepped => starved.step stepped) calls starved ran

/-- A later `Subscribe` of the same query that returns, whoever makes it,
unfiles the channel; it took the lock, so the listener is not sending. -/
theorem OnlyUnder.starved_of_subscribe {subscriber : String} {outCapacity : List Nat}
    {sent : Option String} {out' : Nat} (only : w.OnlyUnder query out)
    (called : w.subscribe subscriber query outCapacity sent = some (.ok out', w')) : w'.Starved out := by
  obtain ⟨made, under⟩ := only
  rcases subscribe_eq_some called with ⟨-, err, failed⟩ | ⟨-, -, idle, -, rfl⟩
  · cases failed
  · refine ⟨⟨Nat.lt_succ_of_lt made, fun query' filed => ?_⟩, fun result sending => ?_⟩
    · dsimp only at filed
      rw [Function.update_apply] at filed
      split_ifs at filed with here
      · -- the query now files the new channel
        cases filed
        exact Nat.lt_irrefl _ made
      · exact here (under query' filed)
    · dsimp only at sending
      rw [idle] at sending
      cases sending

/-- An `Unsubscribe` of the query that returns, whoever makes it, unfiles the
channel; it took the lock, so the listener is not sending. -/
theorem OnlyUnder.starved_of_unsubscribe {subscriber : String} {sent : Option String}
    (only : w.OnlyUnder query out) (called : w.unsubscribe subscriber query sent = some (none, w')) :
    w'.Starved out := by
  obtain ⟨made, under⟩ := only
  rcases unsubscribe_eq_some called with ⟨-, err, failed⟩ | ⟨-, -, idle, -, rfl⟩
  · cases failed
  · refine ⟨⟨made, fun query' filed => ?_⟩, fun result sending => ?_⟩
    · dsimp only at filed
      rw [Function.update_apply] at filed
      split_ifs at filed with here
      exact here (under query' filed)
    · dsimp only at sending
      rw [idle] at sending
      cases sending

/-- A read of an empty unbuffered channel that nothing reaches blocks. -/
theorem Starved.read_eq_none (starved : w.Starved out) (unbuffered : w.Unbuffered out) :
    w.read out = none := by
  cases reading : w.read out with
  | none => rfl
  | some taken =>
      obtain ⟨result, w''⟩ := taken
      rcases read_eq_some reading with ⟨sending, -⟩ | ⟨ch, received, -⟩
      · exact absurd sending (starved.2 result)
      · rw [(Chan.recv_eq_none_iff _).mpr unbuffered.2.2] at received
        cases received

/-- Channel `out` is filed under `query` alone, and every event in its buffer
or in the listener's send to it answers `query`. -/
structure Routed (w : WSEvents α) (query : String) (out : Nat) : Prop where
  only : w.OnlyUnder query out
  buffered : ∀ result ∈ (w.chans out).buf, result.query = query
  sending : ∀ result, w.pending = some (out, result) → result.query = query

theorem Routed.step (routed : w.Routed query out) (stepped : w.step call = some w') :
    w'.Routed query out := by
  obtain ⟨only, buffered, sending⟩ := routed
  refine ⟨only.step stepped, ?_, ?_⟩
  · intro result member
    rcases step_chan stepped only.1 with same | ⟨result', filed, -, sent⟩ | ⟨result', received⟩
    · rw [same] at member
      exact buffered result member
    · -- the listener appends an event of the query the channel is filed under
      rw [Chan.buf_of_send sent, List.mem_append, List.mem_singleton] at member
      rcases member with old | rfl
      · exact buffered result old
      · exact only.2 result.query filed
    · apply buffered result
      rw [Chan.buf_of_recv received]
      exact List.mem_cons_of_mem _ member
  · intro result started
    rcases step_pending stepped with same | ended | ⟨target, result', -, filed, -, began⟩
    · exact sending result (same ▸ started)
    · rw [ended] at started
      cases started
    · rw [began] at started
      cases started
      exact only.2 result.query filed

theorem Routed.run (routed : w.Routed query out) (ran : w.run calls = some w') : w'.Routed query out :=
  Go.run_invariant WSEvents.step (fun w => w.Routed query out)
    (fun _ _ _ routed stepped => routed.step stepped) calls routed ran

/-- A `Subscribe` that returns a channel routes to it: the channel is new and
empty, and the listener is not sending, since it took the lock. -/
theorem routed_of_subscribe {subscriber : String} {outCapacity : List Nat} {sent : Option String}
    (tidy : w.Tidy) (called : w.subscribe subscriber query outCapacity sent = some (.ok out, w')) :
    w'.Routed query out := by
  refine ⟨onlyUnder_of_subscribe tidy called, ?_, ?_⟩
  all_goals rcases subscribe_eq_some called with ⟨-, err, failed⟩ | ⟨-, -, idle, returned, rfl⟩
  · cases failed
  · cases returned
    intro result member
    dsimp only at member
    rw [Function.update_self] at member
    cases member
  · cases failed
  · intro result sending
    dsimp only at sending
    rw [idle] at sending
    cases sending

/-- A read of a routed channel returns an event of its query. -/
theorem Routed.read_query {w'' : WSEvents α} {result : ResultEvent α} (routed : w.Routed query out)
    (taken : w.read out = some (result, w'')) : result.query = query := by
  rcases read_eq_some taken with ⟨sending, -⟩ | ⟨ch, received, -⟩
  · exact routed.sending result sending
  · apply routed.buffered result
    rw [Chan.buf_of_recv received]
    exact List.mem_cons_self

end Invariants

/-! ## Runs -/

/-- Over every interleaving, a subscriber reads only events of the query it
subscribed with. -/
theorem subscribe_reads_only_its_query {history calls : List (Call α)} {w w' before after : WSEvents α}
    {subscriber query : String} {outCapacity : List Nat} {sent : Option String} {out : Nat}
    {result : ResultEvent α}
    (reached : newWSEvents.run history = some w)
    (subscribed : w.subscribe subscriber query outCapacity sent = some (.ok out, w'))
    (ran : w'.run calls = some before) (taken : before.read out = some (result, after)) :
    result.query = query := by
  have tidy : w.Tidy := tidy_newWSEvents.run reached
  have routed : before.Routed query out := (routed_of_subscribe tidy subscribed).run ran
  exact routed.read_query taken

theorem subscribe_reads_only_its_query_newBlock :
    ∃ (w w' before after : WSEvents Unit),
      newWSEvents.run [.start] = some w ∧
      w.subscribe "a" "tm.event = NewBlock" [] none = some (.ok 0, w') ∧
      w'.run [.response (.event ⟨"tm.event = NewBlock", ()⟩)] = some before ∧
      before.read 0 = some (⟨"tm.event = NewBlock", ()⟩, after) ∧
      (⟨"tm.event = NewBlock", ()⟩ : ResultEvent Unit).query = "tm.event = NewBlock" := by
  refine ⟨_, _, _, _, rfl, rfl, rfl, rfl, ?_⟩
  exact @subscribe_reads_only_its_query Unit [.start] [.response (.event ⟨"tm.event = NewBlock", ()⟩)]
    _ _ _ _ "a" "tm.event = NewBlock" [] none 0 _ rfl rfl rfl rfl

end WSEvents

end CoreSdk.Rpc

namespace CoreSdk.Types

/-- `sdk.Subscription` (`types/event.go`) without its context: the query and
the subscriber's id. -/
structure Subscription where
  query : String
  id : String

end CoreSdk.Types

namespace CoreSdk.Client.RpcClient

open CoreSdk.Rpc CoreSdk.Types

set_option autoImplicit false

variable {α : Type}

/-- `rpcClient.SubscribeAny` up to the goroutine it starts: `Subscribe` of an
unbuffered channel under the fresh id `subscriber` (`getSubscriber`), and the
subscription it returns. That goroutine's `<-ch` is a read of the channel. -/
def subscribeAny (w : WSEvents α) (subscriber query : String) (sent : Option String) :
    Option (Except String (Subscription × Nat) × WSEvents α) :=
  (w.subscribe subscriber query [0] sent).map fun (res, w') =>
    (res.map fun out => (⟨query, subscriber⟩, out), w')

/-- `rpcClient.Unsubscribe`. -/
def unsubscribe (w : WSEvents α) (subscription : Subscription) (sent : Option String) :
    Option (Option String × WSEvents α) :=
  w.unsubscribe subscription.id subscription.query sent

theorem subscribe_of_subscribeAny {w w' : WSEvents α} {subscriber query : String} {sent : Option String}
    {subscription : Subscription} {out : Nat}
    (called : subscribeAny w subscriber query sent = some (.ok (subscription, out), w')) :
    w.subscribe subscriber query [0] sent = some (.ok out, w') ∧ subscription = ⟨query, subscriber⟩ := by
  obtain ⟨⟨res, w''⟩, subscribed, same⟩ := Option.map_eq_some_iff.mp called
  cases res with
  | error err => cases same
  | ok out' =>
      cases same
      exact ⟨subscribed, rfl⟩

/-- Two `SubscribeAny` of one query: once a second one, by any subscriber, or
an `Unsubscribe` of any subscription to the query returns without error, the
goroutine of the first waits on its channel for ever, over every later
interleaving. -/
theorem subscribeAny_same_query_starves_first {history calls later : List (WSEvents.Call α)}
    {w w₀ w₁ w₂ before : WSEvents α} {subscriber query : String} {sent : Option String}
    {subscription : Subscription} {out : Nat}
    (reached : WSEvents.newWSEvents.run history = some w)
    (first : subscribeAny w subscriber query sent = some (.ok (subscription, out), w₀))
    (meanwhile : w₀.run calls = some w₁)
    (second : (∃ subscriber' sent' found, subscribeAny w₁ subscriber' query sent' = some (.ok found, w₂)) ∨
      ∃ other sent', other.query = query ∧ RpcClient.unsubscribe w₁ other sent' = some (none, w₂))
    (ran : w₂.run later = some before) : before.read out = none := by
  obtain ⟨subscribed, -⟩ := subscribe_of_subscribeAny first
  have tidy : w.Tidy := WSEvents.tidy_newWSEvents.run reached
  have only : w₁.OnlyUnder query out := (WSEvents.onlyUnder_of_subscribe tidy subscribed).run meanwhile
  have unbuffered : w₁.Unbuffered out := (WSEvents.unbuffered_of_subscribe subscribed).run meanwhile
  -- the second call unfiles the channel, with the listener not sending on it
  have starved : w₂.Starved out ∧ w₂.Unbuffered out := by
    rcases second with ⟨subscriber', sent', ⟨subscription', out'⟩, again⟩ |
      ⟨other, sent', sameQuery, ended⟩
    · have resubscribed := (subscribe_of_subscribeAny again).1
      exact ⟨only.starved_of_subscribe resubscribed,
        unbuffered.step (WSEvents.step_of_subscribe resubscribed)⟩
    · subst sameQuery
      exact ⟨only.starved_of_unsubscribe ended, unbuffered.step (WSEvents.step_of_unsubscribe ended)⟩
  obtain ⟨starved, unbuffered⟩ := starved
  exact (starved.run ran).read_eq_none (unbuffered.run ran)

theorem subscribeAny_same_query_starves_first_newBlock :
    ∃ (w w₀ w₂ before : WSEvents Unit),
      WSEvents.newWSEvents.run [.start] = some w ∧
      subscribeAny w "a" "tm.event = NewBlock" none = some (.ok (⟨"tm.event = NewBlock", "a"⟩, 0), w₀) ∧
      subscribeAny w₀ "b" "tm.event = NewBlock" none = some (.ok (⟨"tm.event = NewBlock", "b"⟩, 1), w₂) ∧
      w₂.run [.response (.event ⟨"tm.event = NewBlock", ()⟩)] = some before ∧
      before.read 0 = none := by
  refine ⟨_, _, _, _, rfl, rfl, rfl, rfl, ?_⟩
  exact @subscribeAny_same_query_starves_first Unit [.start] [] [.response (.event ⟨"tm.event = NewBlock", ()⟩)]
    _ _ _ _ _ "a" "tm.event = NewBlock" none _ 0 rfl rfl rfl (.inl ⟨"b", none, _, rfl⟩) rfl

end CoreSdk.Client.RpcClient
