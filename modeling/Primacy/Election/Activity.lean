/-
  Primacy.Election.Activity

  Everything that can go on around one elector, under one head: calls of starting, stopping and
  waiting, the registration of a callback, and the waiter in the background.
-/
import Primacy.Election.Await
import Primacy.Election.Start
import Primacy.Election.Stop
import Primacy.Election.Waiter

namespace Primacy.Election

inductive Activity where
  | start (p : StartPoint)
  | stop (p : StopPoint)
  | await (p : AwaitPoint)
  | notify (p : NotifyPoint)
  | waiter (p : WaiterPoint)

/-- How an activity ends. -/
inductive Ending where
  | started (r : StartResult)
  | stopped (r : StopResult)
  | awaited (state : State)
  | done

namespace Activity

/-- The request that the activity waits for, if it waits for one. -/
def request? (e : Elector) : Activity → Option Request
  | start p => p.request? e
  | stop p => p.request?
  | waiter p => p.request? e
  | _ => none

/-- The activity can take a step of its own. -/
def isReady (e : Elector) (me : CallId) : Activity → Bool
  | start p => p.isReady e me
  | stop p => p.isReady e me
  | await p => p.isReady e
  | notify _ => true
  | waiter p => p.isReady e

/-- One step of its own. -/
def step (e : Elector) (me : CallId) : Activity → Turn Activity Ending
  | start p => (p.step e me).within start fun r => .inr (.started r)
  | stop p => (p.step e me).within stop fun r => .inr (.stopped r)
  | await p => (p.step e).within await fun s => .inr (.awaited s)
  | notify p => (p.step e).within notify fun () => .inr .done
  | waiter p => (p.step e).within waiter fun () => .inr .done

/-- Goes on with the answer to its request. -/
def reply (e : Elector) (r : Reply) : Activity → Turn Activity Ending
  | start p => (p.reply e r).within start fun r => .inr (.started r)
  | stop p => (p.reply e r).within stop fun r => .inr (.stopped r)
  | waiter p => (p.reply e r).within waiter fun () => .inr .done
  | a => .go e a

/-- What is left of an elector when the activity is broken off. -/
def abandon (e : Elector) (me : CallId) : Activity → Elector
  | start p => p.abandon e me
  | stop p => p.abandon e me
  | waiter _ => WaiterPoint.abandon e
  | _ => e

/-- The activity keeps the elector from being dropped. -/
def isCall : Activity → Bool
  | waiter _ => false
  | _ => true

end Activity

end Primacy.Election
