import Mathlib.Data.List.Nodup
import Voltha.Lib.OrderedDict
import Voltha.Lib.Steps

/-!
# Event bus

`common/event_bus.py`。topic ごとの subscription の列を、辞書 `subscriptions` に持つ。
正規表現の subscription は key `None` にまとめる。

`publish` は `subscriptions.get(topic, [])` で得た列に、合う正規表現の subscription を `extend` で
足してから配る。**key があるときに得られるのは bus 自身の列** なので、足したものが bus に残る。
-/

namespace Voltha.Common

/-- `subscribe` に渡す topic。`str` でも `match` を持つ object でもないものは `other`。 -/
inductive Topic where
  | explicit (topic : String)
  | pattern (hit : String → Bool)
  | other

/-- `_Subscription`。`id` は object としての同一性、predicate の `none` は例外。 -/
structure Subscription (Msg Callback : Type) where
  id : Nat
  predicate : Option (Msg → Option Bool)
  callback : Callback
  topic : Topic

/-- bus の操作が投げる例外。 -/
inductive BusError where
  | attributeError
  | keyError
  | valueError
deriving DecidableEq, Repr

/-- `EventBus`。`nextId` は、次に作る subscription の同一性。 -/
structure EventBus (Msg Callback : Type) where
  subscriptions : List (Option String × List (Subscription Msg Callback))
  subsTopicMap : List (Nat × Option String)
  nextId : Nat

variable {Msg Callback : Type}

/-- `_get_topic_key`。 -/
def getTopicKey : Topic → Except BusError (Option String)
  | .explicit topic => .ok (some topic)
  | .pattern _ => .ok none
  | .other => .error .attributeError

/-- `topic` と等しいか、合うか。 -/
def Topic.hears : Topic → String → Bool
  | .explicit t, topic => t = topic
  | .pattern hit, topic => hit topic
  | .other, _ => false

/-- `key` の列に入る topic か。 -/
def Topic.keyed (key : Option String) : Topic → Bool
  | .explicit topic => key = some topic
  | .pattern _ => key = none
  | .other => false

namespace Subscription

/-- predicate が無いか、通る。例外を投げた predicate は通らない。 -/
def passes (s : Subscription Msg Callback) (msg : Msg) : Bool :=
  match s.predicate with
  | none => true
  | some predicate => (predicate msg).getD false

end Subscription

namespace EventBus

/-- 空の bus。 -/
def initial : EventBus Msg Callback := ⟨[], [], 0⟩

/-- `subscriptions.get(key, [])`。 -/
def subs (b : EventBus Msg Callback) (key : Option String) : List (Subscription Msg Callback) :=
  (b.subscriptions.lookup key).getD []

/-- `list_subscribers(topic)`。 -/
def listSubscribers (b : EventBus Msg Callback) :
    Option String → List (Subscription Msg Callback)
  | none => b.subscriptions.flatMap Prod.snd
  | some topic => b.subs (some topic)

/-- `subscribe(topic, callback, predicate)`。 -/
def subscribe (b : EventBus Msg Callback) (topic : Topic) (callback : Callback)
    (predicate : Option (Msg → Option Bool)) :
    Except BusError (Subscription Msg Callback × EventBus Msg Callback) := do
  let subscription := ⟨b.nextId, predicate, callback, topic⟩
  let key ← getTopicKey topic
  return (subscription,
    { subscriptions := OrderedDict.set b.subscriptions key (b.subs key ++ [subscription])
      subsTopicMap := OrderedDict.set b.subsTopicMap b.nextId key
      nextId := b.nextId + 1 })

/-- `unsubscribe(subscription)`。`subs_topic_map` は片付けない。 -/
def unsubscribe (b : EventBus Msg Callback) (id : Nat) :
    Except BusError (EventBus Msg Callback) :=
  match b.subsTopicMap.lookup id with
  | none => .error .keyError
  | some key =>
    match b.subscriptions.lookup key with
    | none => .error .keyError
    | some l =>
      if l.any fun s => s.id = id then
        .ok { b with
          subscriptions := OrderedDict.set b.subscriptions key (l.eraseP fun s => s.id = id) }
      else .error .valueError

/-- `publish` が callback を呼ぶ候補。 -/
def subscribers (b : EventBus Msg Callback) (topic : String) : List (Subscription Msg Callback) :=
  b.subs (some topic) ++ (b.subs none).filter fun s => s.topic.hears topic

/-- `publish(topic, msg)`。呼んだ subscription の列と、後の bus。callback の例外は捨てられる。 -/
def publish (b : EventBus Msg Callback) (topic : String) (msg : Msg) :
    List (Subscription Msg Callback) × EventBus Msg Callback :=
  ((b.subscribers topic).filter fun s => s.passes msg,
    match b.subscriptions.lookup (some topic) with
    -- `get` の既定値は新しい列なので、足しても bus には残らない
    | none => b
    | some _ => { b with
        subscriptions := OrderedDict.set b.subscriptions (some topic) (b.subscribers topic) })

end EventBus

/-! ## 使われ方 -/

/-- bus への呼び出し。callback は bus を呼ばない。 -/
inductive BusCall (Msg Callback : Type) where
  | subscribe (topic : Topic) (callback : Callback) (predicate : Option (Msg → Option Bool))
  | unsubscribe (id : Nat)
  | publish (topic : String) (msg : Msg)

/-- bus と、今 subscribe している subscription。 -/
structure Audience (Msg Callback : Type) where
  bus : EventBus Msg Callback
  active : List (Subscription Msg Callback)

namespace Audience

def initial : Audience Msg Callback := ⟨.initial, []⟩

/-- 一つの呼び出し。例外を投げた呼び出しは何も変えない。 -/
def step (a : Audience Msg Callback) : BusCall Msg Callback → Audience Msg Callback
  | .subscribe topic callback predicate =>
    match a.bus.subscribe topic callback predicate with
    | .ok (s, b) => ⟨b, a.active ++ [s]⟩
    | .error _ => a
  | .unsubscribe id =>
    match a.bus.unsubscribe id with
    | .ok b => ⟨b, a.active.eraseP fun s => s.id = id⟩
    | .error _ => a
  | .publish topic msg => ⟨(a.bus.publish topic msg).2, a.active⟩

/-- 今の subscription のうち、この配信を受けるべきもの。 -/
def Wants (a : Audience Msg Callback) (topic : String) (msg : Msg) (id : Nat) : Prop :=
  ∃ s ∈ a.active, s.id = id ∧ s.topic.hears topic = true ∧ s.passes msg = true

open Classical in
/-- `publish` は、受けるべき subscription をちょうど一度ずつ呼び、bus を変えない。 -/
def Exact (a : Audience Msg Callback) : BusCall Msg Callback → Prop
  | .publish topic msg =>
    (∀ id, ((a.bus.publish topic msg).1.map Subscription.id).count id
      = if a.Wants topic msg id then 1 else 0) ∧
    ∀ k, (a.bus.publish topic msg).2.listSubscribers k = a.bus.listSubscribers k
  | _ => True

/-- `publish` する topic に、合う正規表現の subscription があるなら、その topic の列はまだ無い。 -/
def Unmixed (a : Audience Msg Callback) : BusCall Msg Callback → Prop
  | .publish topic _ =>
    (∃ s ∈ a.active, ∃ hit, s.topic = .pattern hit ∧ hit topic = true) →
      a.bus.subscriptions.lookup (some topic) = none
  | _ => True

/-! ## 不変条件 -/

/--
bus の列が、今の subscription をその key で分けたものであること。

`publish` が列を書き足さない限り、呼び出しの前後で保たれる。
-/
structure Kept (a : Audience Msg Callback) : Prop where
  keys : (a.bus.subscriptions.map Prod.fst).Nodup
  subs : ∀ key, a.bus.subs key = a.active.filter fun s => s.topic.keyed key
  ids : (a.active.map Subscription.id).Nodup
  below : ∀ s ∈ a.active, s.id < a.bus.nextId
  home : ∀ s ∈ a.active, ∃ key, s.topic.keyed key = true ∧
    a.bus.subsTopicMap.lookup s.id = some key

variable {a : Audience Msg Callback} {topic : String} {msg : Msg}

theorem kept_initial : (initial : Audience Msg Callback).Kept where
  keys := List.nodup_nil
  subs _ := rfl
  ids := List.nodup_nil
  below _ h := by cases h
  home _ h := by cases h

theorem keyed_of_getTopicKey {t : Topic} {key : Option String} (h : getTopicKey t = .ok key)
    (k : Option String) : t.keyed k = decide (k = key) := by
  cases t with
  | explicit t => cases h; rfl
  | pattern hit => cases h; rfl
  | other => cases h

theorem subs_set (b : EventBus Msg Callback) {key k : Option String}
    {l : List (Subscription Msg Callback)} {m : List (Nat × Option String)} {n : Nat} :
    EventBus.subs ⟨OrderedDict.set b.subscriptions key l, m, n⟩ k
      = if k = key then l else b.subs k := by
  unfold EventBus.subs
  rw [OrderedDict.lookup_set]
  split
  · rfl
  · rfl

/-- 同一性が重ならなければ、初めの一つを消すのは、それを除くことである。 -/
theorem eraseP_eq_filter {l : List (Subscription Msg Callback)} {id : Nat}
    (h : (l.map Subscription.id).Nodup) :
    l.eraseP (fun s => s.id = id) = l.filter fun s => s.id ≠ id := by
  induction l with
  | nil => rfl
  | cons s l ih =>
    obtain ⟨hnot, hnd⟩ := List.nodup_cons.mp h
    by_cases hs : s.id = id
    · have hrest : l.filter (fun s => s.id ≠ id) = l := by
        refine List.filter_eq_self.mpr fun x hx => decide_eq_true fun hid => hnot ?_
        rw [hs, ← hid]
        exact List.mem_map_of_mem hx
      rw [List.eraseP_cons_of_pos (by simpa using hs), List.filter_cons_of_neg (by simpa using hs),
        hrest]
    · rw [List.eraseP_cons_of_neg (by simpa using hs), List.filter_cons_of_pos (by simpa using hs),
        ih hnd]

theorem Kept.subscribe (h : a.Kept) (t : Topic) (callback : Callback)
    (predicate : Option (Msg → Option Bool)) : (a.step (.subscribe t callback predicate)).Kept := by
  cases hkey : getTopicKey t with
  | error e =>
    have hsame : a.step (.subscribe t callback predicate) = a := by
      simp only [step, EventBus.subscribe, hkey]; rfl
    rw [hsame]
    exact h
  | ok key =>
    have hstep : a.step (.subscribe t callback predicate)
        = ⟨⟨OrderedDict.set a.bus.subscriptions key
              (a.bus.subs key ++ [⟨a.bus.nextId, predicate, callback, t⟩]),
            OrderedDict.set a.bus.subsTopicMap a.bus.nextId key, a.bus.nextId + 1⟩,
          a.active ++ [⟨a.bus.nextId, predicate, callback, t⟩]⟩ := by
      simp only [step, EventBus.subscribe, hkey]; rfl
    have hfresh : ∀ s ∈ a.active, s.id ≠ a.bus.nextId := fun s hs => Nat.ne_of_lt (h.below s hs)
    rw [hstep]
    constructor
    · exact OrderedDict.nodup_keys_set h.keys
    · intro k
      rw [subs_set, List.filter_append, List.filter_singleton, keyed_of_getTopicKey hkey]
      by_cases hk : k = key
      · subst hk
        simp [h.subs]
      · simp [hk, h.subs]
    · rw [List.map_append, List.map_singleton]
      refine List.nodup_append.mpr ⟨h.ids, List.nodup_singleton _, ?_⟩
      rintro i hi j hj rfl
      obtain ⟨s, hs, rfl⟩ := List.mem_map.mp hi
      exact hfresh s hs (List.mem_singleton.mp hj)
    · intro s hs
      rcases List.mem_append.mp hs with hs | hs
      · exact Nat.lt_succ_of_lt (h.below s hs)
      · rw [List.mem_singleton.mp hs]
        exact Nat.lt_succ_self _
    · intro s hs
      show ∃ k, s.topic.keyed k = true ∧
        (OrderedDict.set a.bus.subsTopicMap a.bus.nextId key).lookup s.id = some k
      rw [OrderedDict.lookup_set]
      rcases List.mem_append.mp hs with hs | hs
      · rw [if_neg (hfresh s hs)]
        exact h.home s hs
      · rw [List.mem_singleton.mp hs]
        exact ⟨key, by rw [keyed_of_getTopicKey hkey]; simp, if_pos rfl⟩

/-- 同じ同一性の subscription は一つ。 -/
theorem Kept.eq_of_id (h : a.Kept) {s s' : Subscription Msg Callback} (hs : s ∈ a.active)
    (hs' : s' ∈ a.active) (hid : s.id = s'.id) : s = s' :=
  List.inj_on_of_nodup_map h.ids hs hs' hid

/-- `unsubscribe` が正常に終わるなら、その key の列から初めの一つを消している。 -/
theorem unsubscribe_ok {b b' : EventBus Msg Callback} {id : Nat} (h : b.unsubscribe id = .ok b') :
    ∃ key s, s ∈ b.subs key ∧ s.id = id ∧ b' = { b with
      subscriptions := OrderedDict.set b.subscriptions key
        ((b.subs key).eraseP fun s => s.id = id) } := by
  unfold EventBus.unsubscribe at h
  split at h
  · cases h
  · next key _ =>
    split at h
    · cases h
    · next l hl =>
      split at h
      · next hany =>
        obtain ⟨s, hs, hid⟩ := List.any_eq_true.mp hany
        have hsubs : b.subs key = l := by rw [EventBus.subs, hl, Option.getD_some]
        cases h
        exact ⟨key, s, hsubs ▸ hs, of_decide_eq_true hid, by rw [hsubs]⟩
      · cases h

theorem keyed_unique {t : Topic} {k k' : Option String} (h : t.keyed k = true)
    (h' : t.keyed k' = true) : k = k' := by
  cases t with
  | explicit t => rw [of_decide_eq_true h, of_decide_eq_true h']
  | pattern hit => rw [of_decide_eq_true h, of_decide_eq_true h']
  | other => cases h

theorem Kept.unsubscribe (h : a.Kept) (id : Nat) : (a.step (.unsubscribe id)).Kept := by
  cases hb : a.bus.unsubscribe id with
  | error e =>
    have hsame : a.step (.unsubscribe id) = a := by simp only [step, hb]
    rw [hsame]
    exact h
  | ok b =>
    have hstep : a.step (.unsubscribe id) = ⟨b, a.active.eraseP fun s => s.id = id⟩ := by
      simp only [step, hb]
    obtain ⟨key, s, hs, hid, rfl⟩ := unsubscribe_ok hb
    rw [h.subs key] at hs
    obtain ⟨hact, hskey⟩ := List.mem_filter.mp hs
    have hids : ((a.bus.subs key).map Subscription.id).Nodup := by
      rw [h.subs key]
      exact h.ids.sublist (List.filter_sublist.map _)
    have hsub : (a.active.eraseP fun s => s.id = id).Sublist a.active := List.eraseP_sublist
    rw [hstep]
    refine ⟨OrderedDict.nodup_keys_set h.keys, fun k => ?_, h.ids.sublist (hsub.map _),
      fun s hs => h.below s (hsub.subset hs), fun s hs => h.home s (hsub.subset hs)⟩
    rw [subs_set, eraseP_eq_filter h.ids, eraseP_eq_filter hids]
    split
    · next hk =>
      rw [hk, h.subs key, List.filter_filter, List.filter_filter]
      simp only [Bool.and_comm]
    · next hk =>
      -- 消す subscription は、別の key の列には無い
      rw [h.subs k, List.filter_filter]
      refine List.filter_congr fun x hx => ?_
      by_cases hxi : x.id = id
      · rw [h.eq_of_id hx hact (hxi.trans hid.symm)]
        have hno : s.topic.keyed k = false := by
          rw [Bool.eq_false_iff]
          exact fun hsk => hk (keyed_unique hsk hskey)
        simp [hno]
      · simp [hxi]

/-! ## 配信 -/

theorem hears_eq_keyed {t : Topic} (topic : String) :
    t.hears topic = (t.keyed (some topic) || (t.keyed none && t.hears topic)) := by
  cases t with
  | explicit t => simp [Topic.hears, Topic.keyed, eq_comm]
  | pattern hit => simp [Topic.hears, Topic.keyed]
  | other => rfl

theorem Kept.mem_subscribers (h : a.Kept) {s : Subscription Msg Callback} :
    s ∈ a.bus.subscribers topic ↔ s ∈ a.active ∧ s.topic.hears topic = true := by
  rw [EventBus.subscribers, List.mem_append, h.subs, h.subs, List.mem_filter, List.mem_filter,
    List.mem_filter, hears_eq_keyed, Bool.or_eq_true, Bool.and_eq_true]
  tauto

/-- 名指しの subscription と正規表現の subscription は重ならない。 -/
theorem Kept.nodup_subscribers (h : a.Kept) :
    ((a.bus.subscribers topic).map Subscription.id).Nodup := by
  unfold EventBus.subscribers
  rw [h.subs, h.subs, List.map_append]
  refine List.nodup_append.mpr ⟨h.ids.sublist (List.filter_sublist.map _),
    h.ids.sublist ((List.filter_sublist.trans List.filter_sublist).map _), ?_⟩
  rintro i hi j hj rfl
  obtain ⟨s, hs, rfl⟩ := List.mem_map.mp hi
  obtain ⟨s', hs', hid⟩ := List.mem_map.mp hj
  obtain ⟨hact, hkey⟩ := List.mem_filter.mp hs
  obtain ⟨hact', hkey'⟩ := List.mem_filter.mp (List.mem_of_mem_filter hs')
  rw [h.eq_of_id hact' hact hid] at hkey'
  cases keyed_unique hkey hkey'

open Classical in
/-- 受けるべき subscription を、ちょうど一度ずつ呼ぶ。 -/
theorem Kept.count_publish (h : a.Kept) (id : Nat) :
    ((a.bus.publish topic msg).1.map Subscription.id).count id
      = if a.Wants topic msg id then 1 else 0 := by
  have hnd : ((a.bus.publish topic msg).1.map Subscription.id).Nodup :=
    h.nodup_subscribers.sublist (List.filter_sublist.map _)
  have hmem : id ∈ (a.bus.publish topic msg).1.map Subscription.id ↔ a.Wants topic msg id := by
    simp only [EventBus.publish, List.mem_map, List.mem_filter, h.mem_subscribers, Wants]
    constructor
    · rintro ⟨s, ⟨⟨hact, hhears⟩, hpass⟩, hid⟩
      exact ⟨s, hact, hid, hhears, hpass⟩
    · rintro ⟨s, hact, hid, hhears, hpass⟩
      exact ⟨s, ⟨⟨hact, hhears⟩, hpass⟩, hid⟩
  rw [hnd.count]
  simp only [hmem]

/-- 合う正規表現の subscription が無ければ、書き足すものは無い。 -/
theorem Kept.subscribers_eq (h : a.Kept)
    (hno : ¬∃ s ∈ a.active, ∃ hit, s.topic = .pattern hit ∧ hit topic = true) :
    a.bus.subscribers topic = a.bus.subs (some topic) := by
  rw [EventBus.subscribers, h.subs none]
  refine List.append_right_eq_self.mpr (List.filter_eq_nil_iff.mpr fun s hs hhears => hno ?_)
  obtain ⟨hact, hkey⟩ := List.mem_filter.mp hs
  cases ht : s.topic with
  | explicit t => rw [ht] at hkey; cases hkey
  | pattern hit => rw [ht] at hhears; exact ⟨s, hact, hit, ht, hhears⟩
  | other => rw [ht] at hkey; cases hkey

/-- 条件が成り立てば、`publish` は bus を変えない。 -/
theorem Kept.publish_bus (h : a.Kept) (hC : a.Unmixed (.publish topic msg)) :
    (a.bus.publish topic msg).2 = a.bus := by
  unfold EventBus.publish
  cases hl : a.bus.subscriptions.lookup (some topic) with
  | none => rfl
  | some l =>
    have hno : ¬∃ s ∈ a.active, ∃ hit, s.topic = .pattern hit ∧ hit topic = true := by
      intro hex
      rw [hC hex] at hl
      cases hl
    have hsubs : a.bus.subs (some topic) = l := by rw [EventBus.subs, hl, Option.getD_some]
    dsimp only
    rw [h.subscribers_eq hno, hsubs, OrderedDict.set_lookup h.keys hl]

/-- 条件が破れた `publish` は、その topic の列を伸ばす。 -/
theorem Kept.unmixed_of_listSubscribers (h : a.Kept)
    (hsame : ∀ k, (a.bus.publish topic msg).2.listSubscribers k = a.bus.listSubscribers k) :
    a.Unmixed (.publish topic msg) := by
  rintro ⟨s, hact, hit, ht, hhit⟩
  cases hl : a.bus.subscriptions.lookup (some topic) with
  | none => rfl
  | some l =>
    have hgrown := hsame (some topic)
    simp only [EventBus.publish, hl, EventBus.listSubscribers, subs_set, if_true,
      EventBus.subscribers] at hgrown
    have hmem : s ∈ (a.bus.subs none).filter fun s => s.topic.hears topic := by
      rw [h.subs none]
      refine List.mem_filter.mpr ⟨List.mem_filter.mpr ⟨hact, ?_⟩, ?_⟩
      · rw [ht]; rfl
      · rw [ht]; exact hhit
    rw [List.append_right_eq_self.mp hgrown] at hmem
    cases hmem

theorem Kept.exact_iff (h : a.Kept) (c : BusCall Msg Callback) : a.Exact c ↔ a.Unmixed c := by
  cases c with
  | subscribe t callback predicate => exact Iff.rfl
  | unsubscribe id => exact Iff.rfl
  | publish topic msg =>
    constructor
    · exact fun hE => h.unmixed_of_listSubscribers hE.2
    · exact fun hC => ⟨h.count_publish, fun k => by rw [h.publish_bus hC]⟩

theorem Kept.step (h : a.Kept) {c : BusCall Msg Callback} (hC : a.Unmixed c) : (a.step c).Kept := by
  cases c with
  | subscribe t callback predicate => exact h.subscribe t callback predicate
  | unsubscribe id => exact h.unsubscribe id
  | publish topic msg =>
    have hsame : a.step (.publish topic msg) = a := by
      rw [Audience.step, h.publish_bus hC]
    rw [hsame]
    exact h

end Audience

/--
**ちょうど一度の配信の条件。**

どの順で `subscribe` / `unsubscribe` / `publish` しても、`publish` が受けるべき subscription を
ちょうど一度ずつ呼び、`list_subscribers` を変えないのは、**合う正規表現の subscription がある topic に、
名指しの列が（空になって残ったものも含めて）無い** ときに限る。
-/
theorem delivers_once_iff (l : List (BusCall Msg Callback)) :
    Steps.Each Audience.step Audience.Exact Audience.initial l
      ↔ Steps.Each Audience.step Audience.Unmixed Audience.initial l :=
  Steps.each_iff_each (I := Audience.Kept) (A := fun _ => True)
    (fun _ c _ h => ⟨h.exact_iff c, fun hC => h.step hC⟩) (fun _ _ => trivial)
    Audience.kept_initial

/-- 正規表現 `.*` と `news` の subscription。`.*` をやめた後も、その callback が呼ばれる。 -/
theorem unsubscribed_pattern_is_called :
    let calls : List (BusCall Unit Unit) := [.subscribe (.pattern fun _ => true) () none,
      .subscribe (.explicit "news") () none, .publish "news" (), .unsubscribe 0]
    let a := calls.foldl Audience.step Audience.initial
    a.active.map Subscription.id = [1] ∧
      ((a.bus.publish "news" ()).1.map Subscription.id) = [1, 0] ∧
      ¬Steps.Each Audience.step Audience.Exact Audience.initial calls := by
  intro calls a
  refine ⟨by decide, by decide, ?_⟩
  rintro ⟨-, -, ⟨-, hsame⟩, -⟩
  have hlen := congrArg List.length (hsame (some "news"))
  exact absurd hlen (by decide)

end Voltha.Common
