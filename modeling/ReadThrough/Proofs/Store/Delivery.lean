import ReadThrough.Proofs.Store.Requests

/-! # What subscribers get

Every subscription to a channel has a feed of its own, and all feeds of a channel are given the same
messages.

* **Announcements** (`Store.broadcast`).  Read off the requests and their answers: the id of each
  result that is accepted while the store is connected goes to the channel of its queue, and each
  reconnection is told to all channels.
* **Delivery** (`Store.delivered`).  What was received from a feed, and then what waits in it.  One
  request adds to it what it announces (`Request.delivers`), and a history all of it
  (`delivered_of_hears`).
* **Main statement** (`Store.faithful_delivery`).  As long as a subscriber listens it gets what is
  announced since it subscribed, whatever others do with their feeds. -/

namespace ReadThrough

namespace Store

variable {s t : Store} {k l : Keys} {feed : Nat} {channel : String} {now : Instant}

/-! ### Announcements -/

/-- Whether messages are delivered after a request. -/
def Request.connects (on : Bool) : Request → Bool
  | op .disconnect => false
  | op .reconnect => true
  | _ => on

/-- Whether messages are delivered after a history. -/
def online (on : Bool) (h : List (Instant × Request)) : Bool :=
  h.foldl (fun on x => x.2.connects on) on

/-- What is announced on a channel by a request and its answer. -/
def Exchange.broadcast (channel : String) (on : Bool) (e : Exchange) : List String :=
  match e.request, e.answer with
  | .op (.complete k id _), .accepted true => if on ∧ k.channel = channel then [id] else []
  | .op .reconnect, _ => [""]
  | _, _ => []

/-- What is announced on a channel, in order. -/
def broadcast (channel : String) : Bool → List Exchange → List String
  | _, [] => []
  | on, e :: log => e.broadcast channel on ++ broadcast channel (e.request.connects on) log

theorem Request.connected_apply (r : Request) (s : Store) (now : Instant) :
    (r.apply s now).connected = r.connects s.connected := by
  cases r with
  | op o =>
      cases o with
      | disconnect => rfl
      | reconnect => rfl
      | _ =>
          refine Store.connected_apply ?_ ?_ s now
          · nofun
          · nofun
  | _ => rfl

theorem connected_after (s : Store) (h : List (Instant × Request)) :
    (s.after h).connected = online s.connected h := by
  induction h generalizing s with
  | nil => rfl
  | cons x h ih =>
      refine (ih (x.2.apply s x.1)).trans ?_
      rw [x.2.connected_apply]
      rfl

/-- What a request announces does not depend on the store. -/
theorem broadcast_congr (channel : String) (on : Bool) (r : Request) (s t : Store)
    (now : Instant) :
    Exchange.broadcast channel on ⟨now, r, r.answer s now⟩ =
      Exchange.broadcast channel on ⟨now, r, r.answer t now⟩ := by
  cases r with
  | op o =>
      cases o with
      | complete k id c =>
          simp only [Request.answer, Op.answer, complete_accepted]
      | _ => rfl
  | _ => rfl

/-! ### Delivery -/

/-- What is received from a feed by a request. -/
def Exchange.taken (feed : Nat) (e : Exchange) : List String :=
  match e.request, e.answer with
  | .op (.receive f), .message m => if f = feed then m.toList else []
  | _, _ => []

/-- The messages that have reached a feed during a history, received or not. -/
def delivered (s : Store) (feed : Nat) (h : List (Instant × Request)) : List String :=
  (s.transcript h).flatMap (Exchange.taken feed) ++ (s.after h).inbox feed

/-- Whether somebody still listens to a feed after a request, if somebody did. -/
def Request.keeps (feed : Nat) : Request → Bool
  | op (.unsubscribe f) => f != feed
  | op .closeFeeds => false
  | _ => true

/-- Operations on queues with another channel leave a feed alone. -/
theorem feeds_of_channel_ne {o : Op} (hl : o.keys? = some l) (hc : l.channel ≠ channel)
    (h : s.Hears feed channel) (now : Instant) :
    (o.apply s now).feeds[feed]? = s.feeds[feed]? := by
  cases o with
  | enqueue l id p => exact feeds_of_wire feed (wire_enqueue s l id p now)
  | dequeue l => exact feeds_of_wire feed (wire_dequeue s l)
  | lookup l id => exact feeds_of_wire feed (wire_forget s now _)
  | isFinished l id => exact feeds_of_wire feed (wire_afterFinished s l id now)
  | complete l' id c =>
      obtain rfl := Option.some.inj hl
      have hw := wire_complete s l' id c now
      split at hw
      · refine (feeds_of_wire feed hw).trans ?_
        obtain ⟨f, hf, -, rfl⟩ := h
        unfold publish
        split
        · simp [hf, Ne.symm hc]
        · rfl
      · exact feeds_of_wire feed hw
  | _ => cases hl

theorem announced_eq_broadcast {o : Op} (hk : ∀ l ∈ o.keys?, l.channel = channel) (s : Store)
    (now : Instant) :
    o.announced s now = Exchange.broadcast channel s.connected ⟨now, .op o, o.answer s now⟩ := by
  cases o with
  | complete l id c =>
      simp only [Op.announced, Op.answer, complete_accepted, Exchange.broadcast]
      cases c.nameable now with
      | true => simp [hk l rfl]
      | false => simp
  | _ => rfl

theorem broadcast_of_channel_ne {o : Op} (hl : o.keys? = some l) (hc : l.channel ≠ channel)
    (on : Bool) (a : Answer) : Exchange.broadcast channel on ⟨now, .op o, a⟩ = [] := by
  cases o with
  | complete l' id c =>
      obtain rfl := Option.some.inj hl
      unfold Exchange.broadcast
      split
      · rename_i hr _
        cases hr
        exact if_neg fun h => hc h.2
      · rename_i hr
        cases hr
      · rfl
  | reconnect => cases hl
  | _ => rfl

theorem taken_of_spares {o : Op} (h : o.spares feed = true) (a : Answer) :
    Exchange.taken feed ⟨now, .op o, a⟩ = [] := by
  unfold Exchange.taken
  split
  · rename_i hr _
    cases hr
    have hf := bne_iff_ne.mp h
    exact if_neg hf
  · rfl

/-- Whoever receives from a feed gets its first message. -/
theorem taken_receive (h : s.Hears feed channel) (now : Instant) :
    ((Op.receive feed).apply s now).Hears feed channel ∧
      Exchange.taken feed ⟨now, .op (.receive feed), (Op.receive feed).answer s now⟩ ++
        ((Op.receive feed).apply s now).inbox feed = s.inbox feed := by
  simp only [Op.apply, Op.answer, Exchange.taken, if_true]
  cases hr : s.receive? feed with
  | none => exact ⟨h, rfl⟩
  | some x =>
      obtain ⟨m, t⟩ := x
      obtain ⟨hi, hh, -⟩ := receive?_some hr
      exact ⟨hh channel h, hi.symm⟩

/-- A request puts into a feed what it announces, behind what is there. -/
theorem Request.delivers {r : Request} (hr : r.keeps feed = true) (h : s.Hears feed channel)
    (now : Instant) :
    (r.apply s now).Hears feed channel ∧
      Exchange.taken feed ⟨now, r, r.answer s now⟩ ++ (r.apply s now).inbox feed =
        s.inbox feed ++ Exchange.broadcast channel s.connected ⟨now, r, r.answer s now⟩ := by
  cases r with
  | op o =>
      by_cases hf : o = .receive feed
      · subst hf
        obtain ⟨hh, ht⟩ := taken_receive h now
        exact ⟨hh, ht.trans (List.append_nil _).symm⟩
      have hs : o.spares feed = true := by
        cases o with
        | receive f => exact bne_iff_ne.mpr fun e => hf (congrArg Op.receive e)
        | unsubscribe f => exact hr
        | closeFeeds => cases hr
        | _ => rfl
      rw [show Exchange.taken feed ⟨now, .op o, Request.answer s now (.op o)⟩ = [] from
        taken_of_spares hs _]
      by_cases hl : ∃ l, o.keys? = some l ∧ l.channel ≠ channel
      · obtain ⟨l, hl, hc⟩ := hl
        obtain ⟨hi, hh⟩ := feed_congr channel (feeds_of_channel_ne hl hc h now)
        refine ⟨hh.mpr h, ?_⟩
        rw [broadcast_of_channel_ne hl hc, List.append_nil]
        exact hi
      · have hk : ∀ l ∈ o.keys?, l.channel = channel := fun l hm =>
          Classical.byContradiction fun hc => hl ⟨l, hm, hc⟩
        obtain ⟨hh, hi⟩ := feed_apply hs hk h now
        refine ⟨hh, hi.trans ?_⟩
        rw [announced_eq_broadcast hk]
        rfl
  | _ => exact ⟨h, (List.append_nil _).symm⟩

/-- A history puts into a feed what it announces, in order and nothing else. -/
theorem delivered_of_hears (h : s.Hears feed channel) {history : List (Instant × Request)}
    (hk : ∀ x ∈ history, x.2.keeps feed = true) :
    s.delivered feed history =
      s.inbox feed ++ broadcast channel s.connected (s.transcript history) := by
  induction history generalizing s with
  | nil => exact (List.append_nil _).symm
  | cons x history ih =>
      obtain ⟨now, r⟩ := x
      obtain ⟨hh, ht⟩ := Request.delivers (hk _ List.mem_cons_self) h now
      have hn := ih hh fun x hx => hk x (List.mem_cons_of_mem _ hx)
      rw [r.connected_apply] at hn
      calc s.delivered feed ((now, r) :: history)
          = Exchange.taken feed ⟨now, r, r.answer s now⟩ ++
              (r.apply s now).delivered feed history := List.append_assoc _ _ _
        _ = _ := by
          rw [hn, ← List.append_assoc, ht, List.append_assoc]
          rfl

/-! ### Receivers that are dropped -/

/-- Whether a request drops the receiver of a feed. -/
def Request.drops (feed : Nat) : Request → Bool
  | op (.unsubscribe f) => f == feed
  | _ => false

/-- A history in which the receiver of a feed is never dropped. -/
def spared (feed : Nat) (h : List (Instant × Request)) : List (Instant × Request) :=
  h.filter fun x => !x.2.drops feed

/-- Whoever drops a receiver announces nothing, adds no feed, and ends no outage. -/
theorem Request.of_drops {r : Request} {j : Nat} (h : r.drops j = true) :
    r = .op (.unsubscribe j) := by
  cases r with
  | op o =>
      cases o with
      | unsubscribe f => rw [beq_iff_eq.mp h]
      | _ => cases h
  | _ => cases h

theorem online_spared (j : Nat) (on : Bool) (h : List (Instant × Request)) :
    online on (spared j h) = online on h := by
  induction h generalizing on with
  | nil => rfl
  | cons x h ih =>
      unfold spared
      rw [List.filter_cons]
      split
      · exact ih _
      · rename_i hx
        have hd : x.2 = .op (.unsubscribe j) := Request.of_drops (by simpa using hx)
        refine (ih on).trans ?_
        show _ = online (x.2.connects on) h
        rw [hd]
        rfl

theorem Request.length_feeds_apply (r : Request) (s t : Store) (now : Instant)
    (h : s.feeds.length = t.feeds.length) :
    (r.apply s now).feeds.length = (r.apply t now).feeds.length := by
  cases r with
  | op o =>
      show (o.apply s now).feeds.length = (o.apply t now).feeds.length
      rw [Store.length_feeds_apply, Store.length_feeds_apply, h]
  | _ => exact h

theorem length_feeds_spared (j : Nat) (h : List (Instant × Request))
    (he : s.feeds.length = t.feeds.length) :
    (s.after (spared j h)).feeds.length = (t.after h).feeds.length := by
  induction h generalizing s t with
  | nil => exact he
  | cons x h ih =>
      unfold spared
      rw [List.filter_cons]
      split
      · exact ih (x.2.length_feeds_apply s t x.1 he)
      · rename_i hx
        have hd : x.2 = .op (.unsubscribe j) := Request.of_drops (by simpa using hx)
        obtain ⟨now, r⟩ := x
        obtain rfl : r = _ := hd
        exact ih (he.trans (Store.length_feeds_apply (.unsubscribe j) t now).symm)

theorem broadcast_spared (channel : String) (j : Nat) (on : Bool) (s t : Store)
    (h : List (Instant × Request)) :
    broadcast channel on (s.transcript (spared j h)) = broadcast channel on (t.transcript h) := by
  induction h generalizing s t on with
  | nil => rfl
  | cons x h ih =>
      unfold spared
      rw [List.filter_cons]
      split
      · show _ ++ broadcast _ _ _ = _ ++ broadcast _ _ _
        rw [broadcast_congr channel on x.2 s t x.1]
        exact congrArg _ (ih _ _ _)
      · rename_i hx
        have hd : x.2 = .op (.unsubscribe j) := Request.of_drops (by simpa using hx)
        refine (ih on s (x.2.apply t x.1)).trans ?_
        obtain ⟨now, r⟩ := x
        obtain rfl : r = _ := hd
        rfl

/-! ### Faithful delivery -/

/-- **Faithful delivery.**  Let somebody subscribe to a channel after any history.  Whatever happens
later, as long as the new receiver is not dropped: it gets an empty message at once if the store is
connected; then, in order and once each, the id of every result that is accepted for the channel
while the store is connected, and an empty message for every reconnection; and nothing else.  It
gets the same, under the same number, if another receiver is never dropped. -/
theorem faithful_delivery (earlier later : List (Instant × Request)) (channel : String) :
    let s := after {} earlier
    let (feed, t) := s.subscribe channel
    (∀ x ∈ later, x.2.keeps feed = true) →
      t.delivered feed later = (if online true earlier then [""] else []) ++
        broadcast channel (online true earlier) (t.transcript later) ∧
      ∀ other ≠ feed,
        let (feed', t') := (after {} (spared other earlier)).subscribe channel
        feed' = feed ∧ t'.delivered feed (spared other later) = t.delivered feed later := by
  intro s hk
  have hc : s.connected = online true earlier := connected_after {} earlier
  have first (u : Store) :
      (u.subscribe channel).2.inbox u.feeds.length = if u.connected then [""] else [] := by
    simp [subscribe, inbox]
  have hd := delivered_of_hears (hears_subscribe s channel) hk
  rw [first] at hd
  refine ⟨by rw [← hc]; exact hd, fun other _ => ?_⟩
  -- the same from the history in which the other receiver is not dropped
  let s' := after {} (spared other earlier)
  have hl : s'.feeds.length = s.feeds.length := length_feeds_spared other earlier rfl
  have hc' : s'.connected = s.connected := by
    rw [hc, connected_after, online_spared]
  have hk' : ∀ x ∈ spared other later, x.2.keeps s'.feeds.length = true :=
    fun x hx => hl ▸ hk x (List.mem_filter.mp hx).1
  have hd' := delivered_of_hears (hears_subscribe s' channel) hk'
  rw [first, hc', hl] at hd'
  refine ⟨hl, hd'.trans (Eq.trans (congrArg _ ?_) hd.symm)⟩
  exact (congrArg (broadcast channel · _) hc').trans
    (broadcast_spared channel other s.connected _ _ later)

/-- An outage hides one result from a subscriber and is made up for by an empty message; results of
another queue, and a receiver that is dropped, make no difference. -/
theorem faithful_delivery_outage :
    let k : Keys := ⟨"q"⟩
    let earlier := [(0, Request.op (.subscribe k.channel))]
    let later := [(1, .op (.complete k "a" (.value []))), (2, .op (.receive 1)),
      (3, .op .disconnect), (4, .op (.complete k "b" (.value []))), (5, .op .reconnect),
      (6, .op (.unsubscribe 0)), (7, .op (.complete k "c" (.failure "boom" ⟨1⟩))),
      (8, .op (.complete ⟨"p"⟩ "d" (.value [])))]
    (∀ x ∈ later, x.2.keeps 1 = true) ∧ 0 ≠ 1 ∧
      (((after {} earlier).subscribe k.channel).2).delivered 1 later = ["", "a", "", "c"] := by
  intro k earlier later
  have hk : ∀ x ∈ later, x.2.keeps 1 = true := by
    simp [later, Request.keeps]
  refine ⟨hk, by decide, ((faithful_delivery earlier later k.channel) hk).1.trans ?_⟩
  decide +kernel

end Store

end ReadThrough
