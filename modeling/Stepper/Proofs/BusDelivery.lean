import Mathlib.Data.List.Induction
import Mathlib.Data.List.Nodup
import Stepper.Bus

/-! # What a bus delivers -/

namespace Stepper

open List

/-- What can be done with a bus. Subscribers are named by the number they were given. -/
inductive BusAction (α : Type) where
  | subscribe
  | drop (number : Nat)
  | publish (kind : EventKind) (payload : α)
  | receive (number : Nat)
  | history

/-- What an action on a bus comes back with. -/
inductive BusReply (α : Type) where
  | subscribed (number : Nat)
  | dropped
  | published (event : Event α)
  | received (number : Nat) (event : Option (Event α))
  | history (events : List (Event α))

namespace BusAction

def isSubscription : BusAction α → Bool
  | .subscribe => true
  | _ => false

def publication? : BusAction α → Option (EventKind × α)
  | .publish kind payload => some (kind, payload)
  | _ => none

/-- Whether the subscriber of that number has subscribed and was not given up since. -/
def Listens (actions : List (BusAction α)) (number : Nat) : Prop :=
  ∃ before after, actions = before ++ .subscribe :: after ∧ before.countP isSubscription = number ∧
    .drop number ∉ after

lemma listens_concat : Listens (actions ++ [action]) number ↔
    (Listens actions number ∧ action ≠ .drop number) ∨
    (action = .subscribe ∧ actions.countP isSubscription = number) := by
  constructor
  · rintro ⟨before, after, split, count, kept⟩
    obtain rfl | ⟨others, last, rfl⟩ := after.eq_nil_or_concat
    · obtain ⟨rfl, same⟩ := append_inj' split rfl
      exact .inr ⟨by simpa using same, count⟩
    · rw [concat_eq_append, ← cons_append, ← append_assoc] at split
      obtain ⟨rfl, same⟩ := append_inj' split rfl
      obtain rfl : action = last := by simpa using same
      simp only [concat_eq_append, mem_append, mem_singleton, not_or] at kept
      exact .inl ⟨⟨before, others, rfl, count, kept.1⟩, Ne.symm kept.2⟩
  · rintro (⟨⟨before, after, rfl, count, kept⟩, other⟩ | ⟨rfl, count⟩)
    · refine ⟨before, after ++ [action], by simp, count, ?_⟩
      simpa [kept] using other.symm
    · exact ⟨actions, [], rfl, count, not_mem_nil⟩

end BusAction

namespace BusReply

/-- The events that were published, in order. -/
def events (replies : List (BusReply α)) : List (Event α) :=
  replies.filterMap fun
    | .published event => some event
    | _ => none

/-- The events that one subscriber was handed, in order. -/
def handed (number : Nat) (replies : List (BusReply α)) : List (Event α) :=
  replies.filterMap fun
    | .received receiver event => if receiver = number then event else none
    | _ => none

end BusReply

namespace Bus

open BusAction BusReply

variable {bus : Bus α} {number : Nat}

def act (bus : Bus α) : BusAction α → Bus α × BusReply α
  | .subscribe => (bus.subscribe.1, .subscribed bus.subscribe.2)
  | .drop number => (bus.unsubscribe number, .dropped)
  | .publish kind payload => (bus.publish kind payload, .published (bus.nextEvent kind payload))
  | .receive number => ((bus.receive number).1, .received number (bus.receive number).2)
  | .history => (bus, .history bus.history)

def after (bus : Bus α) (actions : List (BusAction α)) : Bus α :=
  actions.foldl (fun bus action => (bus.act action).1) bus

/-- The replies to actions, one after another. -/
def replies (bus : Bus α) : List (BusAction α) → List (BusReply α)
  | [] => []
  | action :: rest => (bus.act action).2 :: (bus.act action).1.replies rest

def subscriber? (bus : Bus α) (number : Nat) : Option (Subscriber α) :=
  bus.subscribers.find? fun subscriber => subscriber.id == number

/-- What waits for a subscriber, oldest first. -/
def waiting (bus : Bus α) (number : Nat) : List (Event α) :=
  ((bus.subscriber? number).map fun subscriber => subscriber.waiting.reverse).getD []

lemma after_concat (bus : Bus α) (actions) (action : BusAction α) :
    bus.after (actions ++ [action]) = ((bus.after actions).act action).1 := by
  rw [after, foldl_append]
  rfl

@[simp] lemma events_cons (reply : BusReply α) (others) :
    events (reply :: others) = events [reply] ++ events others := by
  cases reply <;> rfl

@[simp] lemma handed_cons (number) (reply : BusReply α) (others) :
    handed number (reply :: others) = handed number [reply] ++ handed number others :=
  filterMap_append (l := [reply])

/-! ### Numbers and the recent past -/

lemma act_capacity (bus : Bus α) (action : BusAction α) :
    (bus.act action).1.capacity = bus.capacity := by
  cases action <;> rfl

lemma act_events (bus : Bus α) (action : BusAction α) :
    let told := events [(bus.act action).2]
    told.map Event.id = range' (bus.published + 1) told.length ∧
    told.map (fun event => (event.kind, event.payload)) = [action].filterMap publication? ∧
    (bus.act action).1.published = bus.published + told.length ∧
    (bus.recent.length ≤ bus.capacity →
      (bus.act action).1.recent = (told.reverse ++ bus.recent).take bus.capacity) := by
  cases action with
  | publish => exact ⟨rfl, rfl, rfl, fun _ => rfl⟩
  | _ => exact ⟨rfl, rfl, rfl, fun short => (take_of_length_le short).symm⟩

lemma take_take_append {events recent : List (Event α)} {capacity : Nat} :
    (events ++ recent.take capacity).take capacity = (events ++ recent).take capacity := by
  rw [take_append, take_append, take_take, Nat.min_eq_left (Nat.sub_le _ _)]

lemma after_events (bus : Bus α) (short : bus.recent.length ≤ bus.capacity) (actions) :
    let told := events (bus.replies actions)
    told.map Event.id = range' (bus.published + 1) told.length ∧
    told.map (fun event => (event.kind, event.payload)) = actions.filterMap publication? ∧
    (bus.after actions).recent = (told.reverse ++ bus.recent).take bus.capacity := by
  induction actions generalizing bus with
  | nil => exact ⟨rfl, rfl, (take_of_length_le short).symm⟩
  | cons action _ ih =>
    obtain ⟨numbered, told, counted, kept⟩ := bus.act_events action
    have keptHere := kept short
    have shortToo : (bus.act action).1.recent.length ≤ (bus.act action).1.capacity := by
      rw [keptHere, act_capacity]
      exact length_take_le _ _
    obtain ⟨numbers, tells, recent⟩ := ih (bus.act action).1 shortToo
    rw [replies, events_cons]
    refine ⟨?_, ?_, ?_⟩
    · rw [map_append, length_append, numbered, numbers, counted, ← List.range'_append_1]
      congr 2
      omega
    · rw [map_append, told, tells, ← filterMap_append]
      rfl
    · rw [after, foldl_cons]
      rw [after] at recent
      rw [recent, act_capacity, keptHere, take_take_append, ← append_assoc, ← reverse_append]

lemma find?_map_same {subscribers : List (Subscriber α)} {change : Subscriber α → Subscriber α}
    (same : ∀ subscriber, (change subscriber).id = subscriber.id) : (subscribers.map change).find?
    (fun subscriber => subscriber.id == number) =
    (subscribers.find? fun subscriber => subscriber.id == number).map change := by
  rw [find?_map]
  simp only [Function.comp_def, same]

lemma act_delivers {subscriber : Subscriber α} (present : bus.subscriber? number = some subscriber)
    (listens : subscriber.dropped = false) {action : BusAction α} (kept : action ≠ .drop number) :
    ∃ later, (bus.act action).1.subscriber? number = some later ∧
      later.dropped = false ∧
      handed number [(bus.act action).2] ++ later.waiting.reverse =
        subscriber.waiting.reverse ++ events [(bus.act action).2] := by
  have own : subscriber.id = number := by simpa using find?_some present
  unfold subscriber? at present ⊢
  cases action with
  | subscribe =>
    refine ⟨subscriber, ?_, listens, by simp [act, handed, events]⟩
    simp [act, subscribe, find?_append, present]
  | history => exact ⟨subscriber, present, listens, by simp [act, handed, events]⟩
  | drop other =>
    have apart : subscriber.id ≠ other := fun same => kept (by rw [← own, same])
    refine ⟨subscriber, ?_, listens, by simp [act, handed, events]⟩
    simp only [act, unsubscribe]
    rw [find?_map_same (fun subscriber => by split <;> rfl), present, Option.map_some, if_neg apart]
  | publish kind payload =>
    refine ⟨{ subscriber with waiting := bus.nextEvent kind payload :: subscriber.waiting }, ?_, listens,
      by simp [act, handed, events]⟩
    simp only [act, publish]
    rw [find?_map, find?_filter]
    obtain ⟨_, before, behind, split, others⟩ := find?_eq_some_iff_append.mp present
    refine congrArg (Option.map _) (find?_eq_some_iff_append.mpr ?_)
    refine ⟨by simp [listens, own], before, behind, split, fun other mem => ?_⟩
    have apart : other.id ≠ number := by simpa using others other mem
    simp [apart]
  | receive other =>
    simp only [act, receive]
    rw [find?_map_same (fun subscriber => by split <;> rfl), present, Option.map_some]
    by_cases same : other = number
    · subst same
      rw [if_pos own, present]
      refine ⟨_, rfl, listens, ?_⟩
      obtain none | ⟨_, _, some⟩ := subscriber.waiting.eq_nil_or_concat
      · simp [handed, events, none]
      · simp [handed, events, some]
    · rw [if_neg (own ▸ Ne.symm same)]
      exact ⟨_, rfl, listens, by simp [handed, events, same]⟩

lemma after_delivers (present : bus.subscriber? number = some subscriber)
    (listens : subscriber.dropped = false) (kept : .drop number ∉ actions) :
    ∃ later, (bus.after actions).subscriber? number = some later ∧
      later.dropped = false ∧
      handed number (bus.replies actions) ++ later.waiting.reverse =
        subscriber.waiting.reverse ++ events (bus.replies actions) := by
  induction actions generalizing bus subscriber with
  | nil => exact ⟨subscriber, present, listens, (append_nil _).symm⟩
  | cons _ _ ih =>
    obtain ⟨here, keptToo⟩ := ne_and_not_mem_of_not_mem_cons kept
    obtain ⟨_, stays, listensToo, first⟩ := act_delivers present listens (Ne.symm here)
    obtain ⟨later, there, listening, others⟩ := ih stays listensToo keptToo
    refine ⟨later, there, listening, ?_⟩
    rw [replies, handed_cons, events_cons, append_assoc, others, ← append_assoc, first, append_assoc]

/-! ### Who is counted -/

/-- Whether the bus itself still holds the subscriber as one that listens. -/
def Hears (bus : Bus α) (number : Nat) : Prop :=
  ∃ subscriber ∈ bus.subscribers, subscriber.id = number ∧ subscriber.dropped = false

/-- What a bus holds of its subscribers after some actions. Numbers are given in order and never twice,
so that who listens can be told from the actions alone. -/
structure Counts (actions : List (BusAction α)) (bus : Bus α) : Prop where
  given : bus.subscriptions = actions.countP isSubscription
  distinct : (bus.subscribers.map Subscriber.id).Nodup
  below : ∀ number ∈ bus.subscribers.map Subscriber.id, number < bus.subscriptions
  listening : ∀ number, bus.Hears number ↔ Listens actions number

lemma Counts.subscribed (counts : Counts actions bus) : (bus.act .subscribe).1.subscriber?
    (actions.countP isSubscription) = some ⟨actions.countP isSubscription, false, []⟩ := by
  rw [← counts.given]
  have fresh : bus.subscribers.find? (fun subscriber => subscriber.id == bus.subscriptions) = none := by
    refine find?_eq_none.mpr fun subscriber mem same => ?_
    exact Nat.ne_of_lt (counts.below _ (mem_map_of_mem mem)) (by simpa using same)
  simp [subscriber?, act, subscribe, find?_append, fresh]

lemma Counts.subscribe (counts : Counts actions bus) : Counts (actions ++ [.subscribe])
    (bus.act .subscribe).1 where
  given := by
    rw [countP_append]
    exact congrArg (· + 1) counts.given
  distinct := by
    simp only [act, Bus.subscribe, map_append, map_cons, map_nil]
    refine nodup_append'.mpr ⟨counts.distinct, nodup_singleton _, ?_⟩
    rw [disjoint_singleton]
    exact fun mem => Nat.lt_irrefl _ (counts.below _ mem)
  below number mem := by
    simp only [act, Bus.subscribe, map_append, map_cons, map_nil, mem_append, mem_singleton] at mem ⊢
    rcases mem with old | rfl
    · exact Nat.lt_succ_of_lt (counts.below number old)
    · exact Nat.lt_succ_self _
  listening number := by
    rw [listens_concat, ← counts.listening number, ← counts.given]
    simp [Hears, act, Bus.subscribe, or_and_right, exists_or]

lemma Counts.kept (counts : Counts actions bus) (plain : action.isSubscription = false)
    (fewer : ((bus.act action).1.subscribers.map Subscriber.id).Sublist
      (bus.subscribers.map Subscriber.id))
    (hears : ∀ number, (bus.act action).1.Hears number ↔ bus.Hears number ∧ action ≠ .drop number)
    (subscriptions : (bus.act action).1.subscriptions = bus.subscriptions) :
    Counts (actions ++ [action]) (bus.act action).1 where
  given := by rw [subscriptions, counts.given, countP_append]; simp [plain]
  distinct := counts.distinct.sublist fewer
  below number mem := subscriptions ▸ counts.below number (fewer.subset mem)
  listening number := by
    have other : action ≠ .subscribe := by
      rintro rfl
      cases plain
    rw [listens_concat, hears, counts.listening number]
    simp [other]

lemma ids_sublist {subscribers others : List (Subscriber α)} {change : Subscriber α → Subscriber α}
    (fewer : others.Sublist subscribers) (same : ∀ subscriber, (change subscriber).id = subscriber.id) :
    ((others.map change).map Subscriber.id).Sublist (subscribers.map Subscriber.id) := by
  have renamed : Subscriber.id ∘ change = Subscriber.id := funext same
  rw [map_map, renamed]
  exact fewer.map _

lemma Counts.act {actions : List (BusAction α)} (counts : Counts actions bus) (action : BusAction α) :
    Counts (actions ++ [action]) (bus.act action).1 := by
  cases action with
  | subscribe => exact counts.subscribe
  | history => exact counts.kept rfl (List.Sublist.refl _) (by simp [Bus.act]) rfl
  | drop =>
    refine counts.kept rfl ?_ (fun number => ?_) rfl
    · exact ids_sublist (List.Sublist.refl _) fun subscriber => by split <;> rfl
    · simp only [Hears, Bus.act, unsubscribe, mem_map, exists_exists_and_eq_and]
      grind
  | publish =>
    refine counts.kept rfl ?_ (fun number => ?_) rfl
    · exact ids_sublist filter_sublist fun _ => rfl
    · simp only [Hears, Bus.act, publish, mem_map, mem_filter, exists_exists_and_eq_and]
      grind
  | receive =>
    refine counts.kept rfl ?_ (fun number => ?_) rfl
    · exact ids_sublist (List.Sublist.refl _) fun subscriber => by split <;> rfl
    · simp only [Hears, Bus.act, receive, mem_map, exists_exists_and_eq_and]
      grind

lemma counts_after (capacity) (actions : List (BusAction α)) :
    Counts actions ((empty capacity).after actions) := by
  induction actions using reverseRecOn with
  | nil => exact ⟨rfl, nodup_nil, by simp [after, empty], by simp [Hears, Listens, after, empty]⟩
  | append_singleton _ action ih =>
    rw [after_concat]
    exact ih.act action

lemma listening_of_publish (bus : Bus α) (kind) (payload : α) :
    ∀ subscriber ∈ (bus.publish kind payload).subscribers, subscriber.dropped = false := by
  intro _ mem
  obtain ⟨_, listens, rfl⟩ := mem_map.mp mem
  simpa using (mem_filter.mp listens).2

lemma audience_publish (capacity) (actions : List (BusAction α)) (kind) (payload : α) :
    ∃ numbers : List Nat, numbers.Nodup ∧ (∀ number, number ∈ numbers ↔ Listens actions number) ∧
      (((empty capacity).after actions).publish kind payload).audience = numbers.length := by
  have counts := (counts_after capacity actions).act (.publish kind payload)
  refine ⟨_, counts.distinct, fun number => ?_, (length_map _).symm⟩
  have same := (counts.listening number).trans listens_concat
  simp only [ne_eq, reduceCtorEq, not_false_eq_true, and_true, false_and, or_false] at same
  rw [← same, mem_map]
  constructor
  · rintro ⟨subscriber, mem, rfl⟩
    exact ⟨subscriber, mem, rfl, listening_of_publish _ _ _ subscriber mem⟩
  · rintro ⟨subscriber, mem, own, _⟩
    exact ⟨subscriber, mem, own⟩

/-- From an empty bus, whatever is done in whatever order: the published events are numbered from one and
are those that were given; the history is the last of them, as many as there are and fit; who subscribes
gets the next number and from then on, as long as it is not given up, has been handed or has waiting what
is published, each event once and in order; and whoever publishes next is heard by those who listen. -/
theorem delivery (capacity : Nat) (actions : List (BusAction α)) :
    let bus := (empty capacity).after actions
    let published := events ((empty capacity).replies actions)
    published.map Event.id = List.range' 1 published.length ∧
      published.map (fun event => (event.kind, event.payload)) = actions.filterMap publication? ∧
      (∃ older, published = older ++ bus.history ∧
        bus.history.length = min capacity published.length) ∧
      (bus.act .subscribe).2 = .subscribed (actions.countP isSubscription) ∧
      (∀ later, .drop (actions.countP isSubscription) ∉ later →
        handed (actions.countP isSubscription) ((bus.act .subscribe).1.replies later) ++
            ((bus.act .subscribe).1.after later).waiting (actions.countP isSubscription) =
          events ((bus.act .subscribe).1.replies later)) ∧
      ∀ kind payload, ∃ numbers : List Nat, numbers.Nodup ∧
        (∀ number, number ∈ numbers ↔ Listens actions number) ∧
        (bus.publish kind payload).audience = numbers.length := by
  intro bus published
  have counts := counts_after capacity actions
  obtain ⟨numbered, told, recent⟩ := (empty capacity).after_events (Nat.zero_le _) actions
  refine ⟨numbered, told, ?_, ?_, fun later kept => ?_, audience_publish capacity actions⟩
  · have kept : bus.history = published.drop (published.length - capacity) := by
      rw [history, recent]
      simp only [empty, List.append_nil, List.take_reverse, List.reverse_reverse]
      rfl
    refine ⟨published.take (published.length - capacity), ?_, ?_⟩
    · rw [kept, List.take_append_drop]
    · rw [kept, List.length_drop]
      omega
  · exact congrArg BusReply.subscribed counts.given
  · obtain ⟨subscriber, there, _, delivered⟩ := after_delivers counts.subscribed rfl kept
    unfold waiting
    rw [show ((bus.act .subscribe).1.after later).subscriber? _ = some subscriber from there]
    exact delivered

end Bus

end Stepper
