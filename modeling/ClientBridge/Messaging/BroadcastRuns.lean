import ClientBridge.Messaging.Broadcasts

/-!
# What a broadcast's workers keep

Under the row's lock a worker sees every message there is, so nobody is texted twice, and none
after a cancel.  Whoever could be reached throughout has a message once the broadcast is sent
(`reachable_messaged`).  The count is the number of messages as long as only the worker that
computed it last takes clients off it (`broadcast_sent_right`).
-/

namespace ClientBridge

open Runs BroadcastStore

variable {π : Type} {p q : π} {s s' : BroadcastStore π}

/-! ## Messages -/

theorem alreadyMessaged_iff {client : Id} : s.alreadyMessaged client = true ↔ client ∈ s.messaged := by
  simp [alreadyMessaged, messaged]

theorem messaged_addMessage (client : Id) (number : String) (read : ClientRead) :
    (s.addMessage client number read).messaged = s.messaged ++ [client] := by
  simp [addMessage, messaged]

theorem recipients_nodup (hn : (s.clients.map CastClient.id).Nodup) (a : BroadcastAudience) : (s.recipients a).Nodup :=
  hn.sublist (((List.take_sublist _ _).trans List.filter_sublist).trans List.filter_sublist |>.map _)

/-- The client whose row is read, where ids differ. -/
theorem find_active (hn : (s.clients.map CastClient.id).Nodup) {c : CastClient} (hc : c ∈ s.clients) (f : CastClient → Bool)
    (hf : f c = true) : s.clients.find? (fun c' => decide (c'.id = c.id) && f c') = some c := by
  cases hfind : s.clients.find? fun c' => decide (c'.id = c.id) && f c' with
  | none =>
    have := List.find?_eq_none.1 hfind c hc
    simp [hf] at this
  | some c' =>
    have hid := List.find?_some hfind
    simp only [Bool.and_eq_true, decide_eq_true_eq] at hid
    exact congrArg some (List.inj_on_of_nodup_map hn (List.mem_of_find?_eq_some hfind) hc hid.1)

/-- Whom `_still_reachable` finds is read as one to be reached. -/
theorem readClient_reached (hn : (s.clients.map CastClient.id).Nodup) {client : Id} {number : String}
    (h : s.stillReachable client = some number) : (s.readClient client).Reached client number := by
  obtain ⟨c, hfind, hreach⟩ := Option.bind_eq_some_iff.1 h
  have hc := List.find?_some hfind
  simp only [Bool.and_eq_true, decide_eq_true_eq] at hc
  obtain ⟨rfl, hactive⟩ := hc
  obtain ⟨hnumber, hallowed⟩ := Option.filter_eq_some_iff.1 hreach
  simp only [Bool.and_eq_true, Bool.not_eq_true'] at hallowed
  have hrow : s.clients.find? (fun c' => decide (c'.id = c.id)) = some c := by
    simpa using find_active hn (List.mem_of_find?_eq_some hfind) (fun _ => true) rfl
  unfold readClient
  dsimp only
  rw [hrow, Option.bind_some, hnumber]
  exact ⟨⟨c, rfl, rfl, hactive, hnumber, hallowed.2⟩, hallowed.1⟩

/-- A recipient is active, and can be reached. -/
theorem stillReachable_of_recipient (hn : (s.clients.map CastClient.id).Nodup) {a : BroadcastAudience} {client : Id}
    (h : client ∈ s.recipients a) : s.stillReachable client ≠ none := by
  obtain ⟨c, hc, rfl⟩ := List.mem_map.1 h
  obtain ⟨haud, hreach⟩ := List.mem_filter.1 (List.mem_of_mem_take hc)
  obtain ⟨hmem, hin⟩ := List.mem_filter.1 haud
  have hactive : c.active = true := by
    unfold inAudience at hin
    rw [Bool.and_eq_true] at hin
    exact hin.1
  unfold stillReachable
  rw [find_active hn hmem CastClient.active hactive]
  intro hnone
  rw [show (some c).bind s.reachable = s.reachable c from rfl] at hnone
  rw [hnone] at hreach
  cases hreach

/-! ## Nobody is texted twice -/

/-- What holds of the broadcast in every run. -/
structure MessagesKept (s : BroadcastStore π) : Prop where
  clients : (s.clients.map CastClient.id).Nodup
  once : s.messaged.Nodup
  reached : ∀ m ∈ s.messages, m.read.Reached m.client m.number
  canceled : ∀ messages, s.atCancel = some messages → s.messages = messages ∧ s.status.claimable = false

/-- A worker that has claimed the row holds its lock, and there is work to do. -/
def Claimed (p : π) (s : BroadcastStore π) : Prop := s.lock = some p ∧ s.status.claimable = true

def SendKnows (p : π) (s : BroadcastStore π) : SendPlace → Prop
  | .idle => True
  | .sending _ _ _ => True
  | .looked client _ _ _ found read => Claimed p s ∧ client ∉ s.messaged ∧
      ∀ number, found = some number → read.Reached client number
  | _ => Claimed p s

/-- The row is left to who holds its lock. -/
structure LeavesCast (p : π) (s s' : BroadcastStore π) : Prop where
  lock : ∀ q, q ≠ p → s.lock = some q → s'.lock = some q
  row : ∀ q, q ≠ p → s.lock = some q → s'.status = s.status ∧ s'.messages = s.messages

theorem LeavesCast.claimed (h : LeavesCast p s s') (hne : q ≠ p) (hc : Claimed q s) :
    Claimed q s' ∧ s'.messages = s.messages := by
  obtain ⟨hst, hm⟩ := h.row q hne hc.1
  exact ⟨⟨h.lock q hne hc.1, by rw [hst]; exact hc.2⟩, hm⟩

theorem LeavesCast.knows (h : LeavesCast p s s') (hne : q ≠ p) {y : SendPlace} (hy : SendKnows q s y) : SendKnows q s' y := by
  cases y with
  | idle => trivial
  | sending todo count excluded => trivial
  | looked client todo count excluded found read =>
    obtain ⟨hc, hm⟩ := h.claimed hne hy.1
    refine ⟨hc, ?_, hy.2.2⟩
    rw [messaged, hm]
    exact hy.2.1
  | _ => exact (h.claimed hne hy).1

/-- The row is free, or the step's own. -/
theorem LeavesCast.of_own (h : s.lock = none ∨ s.lock = some p) : LeavesCast p s s' := by
  have hno : ∀ q, q ≠ p → s.lock ≠ some q := by
    intro q hne hq
    obtain h | h := h
    · rw [h] at hq
      cases hq
    · exact hne (Option.some.inj (hq.symm.trans h))
  exact ⟨fun q hne hq => absurd hq (hno q hne), fun q hne hq => absurd hq (hno q hne)⟩

section
variable [DecidableEq π] {x x' : SendPlace}

theorem SendStep.leaves (hs : SendStep p s x s' x') (hx : SendKnows p s x) : LeavesCast p s s' := by
  have hsame : ∀ t : BroadcastStore π, t.lock = s.lock → t.status = s.status → t.messages = s.messages →
      LeavesCast p s t := fun t hl hst hm => ⟨fun _ _ hq => by rw [hl, hq], fun _ _ _ => ⟨hst, hm⟩⟩
  cases hs with
  | change hc => exact hsame _ rfl rfl rfl
  | cancel hl hst => exact .of_own (.inl hl)
  | claim hl hst => exact .of_own (.inl hl)
  | invalid ha => exact .of_own (.inr hx.1)
  | compute ha => exact hsame _ rfl rfl rfl
  | start => exact .of_own (.inr hx.1)
  | expire => exact hsame _ rfl rfl rfl
  | claimNext hl hst => exact .of_own (.inl hl)
  | already h => exact .of_own (.inr hx.1)
  | look h => exact hsame _ rfl rfl rfl
  | gone => exact .of_own (.inr hx.1.1)
  | message => exact .of_own (.inr hx.1.1)
  | claimLast hl hst => exact .of_own (.inl hl)
  | sent => exact .of_own (.inr hx.1)
  | stop =>
    refine ⟨fun q hne hq => ?_, fun _ _ _ => ⟨rfl, rfl⟩⟩
    show (if s.lock = some p then none else s.lock) = some q
    rw [if_neg (by rw [hq]; exact fun h => hne (Option.some.inj h)), hq]

theorem SendStep.knows_own (hs : SendStep p s x s' x') (hn : (s.clients.map CastClient.id).Nodup)
    (hx : SendKnows p s x) : SendKnows p s' x' := by
  cases hs with
  | claim hl hst => exact ⟨rfl, hst⟩
  | compute ha => exact hx
  | claimNext hl hst => exact ⟨rfl, hst⟩
  | look h =>
    refine ⟨hx, fun hm => ?_, fun number hfound => readClient_reached hn hfound⟩
    rw [alreadyMessaged_iff.2 hm] at h
    cases h
  | claimLast hl hst => exact ⟨rfl, hst⟩
  | _ => trivial

theorem SendStep.messagesKept (hs : SendStep p s x s' x') (hx : SendKnows p s x) (h : MessagesKept s) : MessagesKept s' := by
  have hcancel : ∀ {messages}, s.status.claimable = true → s.atCancel ≠ some messages := by
    intro messages hcl ha
    rw [(h.canceled _ ha).2] at hcl
    cases hcl
  cases hs with
  | change hc => exact ⟨hc, h.once, h.reached, h.canceled⟩
  | cancel hl hst =>
    exact ⟨h.clients, h.once, h.reached, fun messages ha => ⟨Option.some.inj (show some _ = some messages from ha), rfl⟩⟩
  | invalid ha =>
    exact ⟨h.clients, h.once, h.reached, fun messages ha => ⟨Option.some.inj (show some _ = some messages from ha), rfl⟩⟩
  | start => exact ⟨h.clients, h.once, h.reached, fun messages ha => absurd ha (hcancel hx.2)⟩
  | sent => exact ⟨h.clients, h.once, h.reached, fun messages ha => absurd ha (hcancel hx.2)⟩
  | @message client todo count excluded number read =>
    refine ⟨h.clients, ?_, fun m hm => ?_, fun messages ha => absurd ha (hcancel hx.1.2)⟩
    · show (s.addMessage client number read).messaged.Nodup
      rw [messaged_addMessage, List.nodup_append]
      refine ⟨h.once, List.nodup_singleton _, fun a ha b hb hab => ?_⟩
      rw [hab, List.mem_singleton.1 hb] at ha
      exact hx.2.1 ha
    · obtain hm | hm := List.mem_append.1 (show m ∈ s.messages ++ [_] from hm)
      · exact h.reached m hm
      · rw [List.mem_singleton.1 hm]
        exact hx.2.2 number rfl
  | _ => exact ⟨h.clients, h.once, h.reached, h.canceled⟩

end

theorem messages_kept [DecidableEq π] : Kept (π := π) SendStep MessagesKept SendKnows where
  store hs hI hx := hs.messagesKept hx hI
  own hs hI hx := hs.knows_own hI.clients hx
  others hs hne _ hx hy := (hs.leaves hx).knows hne hy

/-! ## The count -/

/-- The count is that of the clients counted; whoever has a message is one of them, and once the
broadcast is sent they all have one. -/
structure CountsKept (s : BroadcastStore π) : Prop where
  count : s.last ≠ none → s.recipientCount = s.counted.length
  nodup : s.counted.Nodup
  messaged : ∀ c ∈ s.messaged, c ∈ s.counted
  sent : s.status = .sent → s.last ≠ none ∧ ∀ c ∈ s.counted, c ∈ s.messaged

/-- A worker that computed the counts last: the clients counted have a message or are before it. -/
def SendProgress (p : π) (s : BroadcastStore π) (todo : List Id) (count : Int) : Prop :=
  s.last = some p → count = s.recipientCount ∧ todo.Nodup ∧ (∀ c ∈ todo, c ∈ s.counted) ∧
    ∀ c ∈ s.counted, c ∈ s.messaged ∨ c ∈ todo

def CountKnows (p : π) (s : BroadcastStore π) : SendPlace → Prop
  | .computed targets _ => targets.Nodup
  | .sending todo count _ => SendProgress p s todo count
  | .next client todo count _ => SendProgress p s (client :: todo) count
  | .looked client todo count _ _ _ => SendProgress p s (client :: todo) count
  | .finishing => s.last = some p → ∀ c ∈ s.counted, c ∈ s.messaged
  | _ => True

/-- What `CountedStep` asks of a step. -/
structure CountedMove (p : π) (s : BroadcastStore π) (x : SendPlace) (s' : BroadcastStore π) (x' : SendPlace) : Prop where
  start : ∀ targets excluded, x = .computed targets excluded → x' ≠ .idle → ∀ c ∈ s.messaged, c ∈ targets
  gone : ∀ client todo count excluded read, x = .looked client todo count excluded none read → x' ≠ .idle → s.last = some p
  message : ∀ client todo count excluded number read, x = .looked client todo count excluded (some number) read → x' ≠ .idle →
    client ∈ s.counted
  sent : x = .finishing → s'.status = .sent → s.last ≠ none ∧ ∀ c ∈ s.counted, c ∈ s.messaged

theorem CountsKept.of_eq (h : CountsKept s) (hc : s'.recipientCount = s.recipientCount) (hl : s'.last = s.last)
    (hs : s'.counted = s.counted) (hm : s'.messages = s.messages) (hst : s'.status = .sent → s.status = .sent) :
    CountsKept s' where
  count := by rw [hc, hl, hs]; exact h.count
  nodup := by rw [hs]; exact h.nodup
  messaged := by rw [BroadcastStore.messaged, hm, hs]; exact h.messaged
  sent := by rw [BroadcastStore.messaged, hm, hl, hs]; exact fun h' => h.sent (hst h')

theorem SendProgress.of_eq {todo : List Id} {count : Int} (h : SendProgress p s todo count)
    (hc : s'.recipientCount = s.recipientCount) (hl : s'.last = s.last) (hs : s'.counted = s.counted)
    (hm : ∀ c ∈ s.messaged, c ∈ s'.messaged) : SendProgress p s' todo count := by
  intro hlast
  obtain ⟨hcount, hn, htodo, hall⟩ := h (hl ▸ hlast)
  exact ⟨hc ▸ hcount, hn, hs ▸ htodo, fun c hc' => (hall c (hs ▸ hc')).imp (hm c) id⟩

theorem CountKnows.of_eq {y : SendPlace} (h : CountKnows p s y) (hc : s'.recipientCount = s.recipientCount)
    (hl : s'.last = s.last) (hs : s'.counted = s.counted) (hm : ∀ c ∈ s.messaged, c ∈ s'.messaged) :
    CountKnows p s' y := by
  cases y with
  | computed targets excluded => exact h
  | sending todo count excluded => exact SendProgress.of_eq h hc hl hs hm
  | next client todo count excluded => exact SendProgress.of_eq h hc hl hs hm
  | looked client todo count excluded found read => exact SendProgress.of_eq h hc hl hs hm
  | finishing => exact fun hlast c hc' => hm c (h (hl ▸ hlast) c (hs ▸ hc'))
  | _ => trivial

/-- Who did not compute the counts last knows nothing of them. -/
theorem CountKnows.of_other {y : SendPlace} (h : CountKnows q s y) (hl : s'.last = some p) (hne : q ≠ p) :
    CountKnows q s' y := by
  have hno : s'.last ≠ some q := fun hq => hne (Option.some.inj (hq.symm.trans hl))
  cases y with
  | computed targets excluded => exact h
  | sending todo count excluded => exact fun hq => absurd hq hno
  | next client todo count excluded => exact fun hq => absurd hq hno
  | looked client todo count excluded found read => exact fun hq => absurd hq hno
  | finishing => exact fun hq => absurd hq hno
  | _ => trivial

/-- Whoever computed the counts last, and has gone through its recipients, leaves all who are counted with a message. -/
theorem CountKnows.through {y : SendPlace} (h : CountKnows p s y) (hy : y.through = true) (hl : s.last = some p) :
    ∀ c ∈ s.counted, c ∈ s.messaged := by
  cases y with
  | sending todo count excluded =>
    cases todo with
    | nil => exact fun c hc => ((h hl).2.2.2 c hc).resolve_right List.not_mem_nil
    | cons client todo => cases hy
  | finishing => exact h hl
  | _ => cases hy

theorem messaged_mono_add (client : Id) (number : String) (read : ClientRead) : ∀ c ∈ s.messaged, c ∈ (s.addMessage client number read).messaged := by
  intro c hc
  rw [messaged_addMessage]
  exact List.mem_append_left _ hc

theorem length_filter_ne {l : List Id} {c : Id} (hn : l.Nodup) (hc : c ∈ l) :
    ((l.filter fun c' => decide (c' ≠ c)).length : Int) = l.length - 1 := by
  have herase : l.filter (fun c' => decide (c' ≠ c)) = l.erase c := by
    rw [hn.erase_eq_filter]
    refine List.filter_congr fun c' _ => ?_
    by_cases he : c' = c <;> simp [he]
  rw [herase, List.length_erase_of_mem hc]
  have := List.length_pos_of_mem hc
  omega

section
variable [DecidableEq π] {x x' : SendPlace}

theorem SendStep.countsKept (hs : SendStep p s x s' x') (hx : SendKnows p s x) (hk : CountKnows p s x)
    (hmove : CountedMove p s x s' x') (h : CountsKept s) : CountsKept s' := by
  have hopen : s.status.claimable = true → s.status ≠ .sent := fun hcl he => by
    rw [he] at hcl
    cases hcl
  cases hs with
  | change hc => exact h.of_eq rfl rfl rfl rfl id
  | cancel hl hst => exact h.of_eq rfl rfl rfl rfl fun he => BroadcastStatus.noConfusion he
  | claim hl hst => exact h.of_eq rfl rfl rfl rfl id
  | invalid ha => exact h.of_eq rfl rfl rfl rfl fun he => BroadcastStatus.noConfusion he
  | compute ha => exact h
  | @start targets excluded =>
    refine ⟨fun _ => rfl, hk, hmove.start targets excluded rfl fun he => SendPlace.noConfusion he, fun he => ?_⟩
    cases he
  | expire => exact h
  | claimNext hl hst => exact h.of_eq rfl rfl rfl rfl id
  | already hm => exact h.of_eq rfl rfl rfl rfl id
  | look hm => exact h
  | @gone client todo count excluded read =>
    have hlast := hmove.gone client todo count excluded read rfl fun he => SendPlace.noConfusion he
    obtain ⟨hcount, hn, htodo, -⟩ := hk hlast
    have hmem := htodo client List.mem_cons_self
    refine ⟨fun _ => ?_, h.nodup.filter _, fun c hc => ?_, fun he => absurd he (hopen hx.1.2)⟩
    · show count - 1 = ((s.counted.filter fun c => decide (c ≠ client)).length : Int)
      rw [length_filter_ne h.nodup hmem, hcount, h.count (by rw [hlast]; exact Option.some_ne_none _)]
    · refine List.mem_filter.2 ⟨h.messaged c hc, ?_⟩
      have hne : c ≠ client := fun he => hx.2.1 (he ▸ hc)
      simpa using hne
  | @message client todo count excluded number read =>
    have hmem := hmove.message client todo count excluded number read rfl fun he => SendPlace.noConfusion he
    refine ⟨h.count, h.nodup, fun c hc => ?_, fun he => absurd he (hopen hx.1.2)⟩
    have hc' : c ∈ (s.addMessage client number read).messaged := hc
    rw [messaged_addMessage] at hc'
    obtain hc' | hc' := List.mem_append.1 hc'
    · exact h.messaged c hc'
    · rw [List.mem_singleton.1 hc']
      exact hmem
  | claimLast hl hst => exact h.of_eq rfl rfl rfl rfl id
  | sent =>
    exact ⟨h.count, h.nodup, h.messaged, fun _ => hmove.sent rfl rfl⟩
  | stop => exact h.of_eq rfl rfl rfl rfl id

theorem SendStep.countKnows_own (hs : SendStep p s x s' x') (hI : MessagesKept s) (hk : CountKnows p s x) :
    CountKnows p s' x' := by
  cases hs with
  | @compute a ha => exact recipients_nodup hI.clients a
  | @start targets excluded => exact fun _ => ⟨rfl, hk, fun _ hc => hc, fun _ hc => .inr hc⟩
  | @expire todo count excluded => exact fun hl => ⟨rfl, (hk hl).2⟩
  | claimNext hl hst => exact SendProgress.of_eq hk rfl rfl rfl fun _ hc => hc
  | @already client todo count excluded hm =>
    intro hl
    obtain ⟨hcount, hn, htodo, hall⟩ := hk hl
    refine ⟨hcount, (List.nodup_cons.1 hn).2, fun c hc => htodo c (List.mem_cons_of_mem _ hc), fun c hc => ?_⟩
    obtain hc | hc := hall c hc
    · exact .inl hc
    · obtain rfl | hc := List.mem_cons.1 hc
      · exact .inl (alreadyMessaged_iff.1 hm)
      · exact .inr hc
  | look hm => exact hk
  | @gone client todo count excluded read =>
    intro hl
    obtain ⟨hcount, hn, htodo, hall⟩ := hk hl
    obtain ⟨hnot, hn'⟩ := List.nodup_cons.1 hn
    refine ⟨rfl, hn', fun c hc => List.mem_filter.2 ⟨htodo c (List.mem_cons_of_mem _ hc), ?_⟩, fun c hc => ?_⟩
    · have hne : c ≠ client := fun he => hnot (he ▸ hc)
      simpa using hne
    · obtain ⟨hc, hne⟩ := List.mem_filter.1 hc
      have hne' : c ≠ client := by simpa using hne
      exact (hall c hc).imp id fun hc' => (List.mem_cons.1 hc').resolve_left hne'
  | @message client todo count excluded number read =>
    intro hl
    obtain ⟨hcount, hn, htodo, hall⟩ := hk hl
    refine ⟨hcount, (List.nodup_cons.1 hn).2, fun c hc => htodo c (List.mem_cons_of_mem _ hc), fun c hc => ?_⟩
    have hadd : ∀ c ∈ s.messaged ++ [client], c ∈ (s.addMessage client number read).messaged := fun c hc => by
      rw [messaged_addMessage]
      exact hc
    obtain hc | hc := hall c hc
    · exact .inl (hadd c (List.mem_append_left _ hc))
    · obtain rfl | hc := List.mem_cons.1 hc
      · exact .inl (hadd c (List.mem_append_right _ List.mem_cons_self))
      · exact .inr hc
  | claimLast hl hst =>
    intro hl c hc
    exact ((hk hl).2.2.2 c hc).resolve_right List.not_mem_nil
  | _ => trivial

theorem SendStep.countKnows_others (hs : SendStep p s x s' x') (hmove : CountedMove p s x s' x') (hne : q ≠ p)
    {y : SendPlace} (hy : CountKnows q s y) : CountKnows q s' y := by
  cases hs with
  | start => exact hy.of_other rfl hne
  | @gone client todo count excluded read =>
    exact hy.of_other (hmove.gone client todo count excluded read rfl fun he => SendPlace.noConfusion he) hne
  | @message client todo count excluded number read => exact hy.of_eq rfl rfl rfl (messaged_mono_add client number read)
  | _ => exact hy.of_eq rfl rfl rfl fun _ hc => hc

end

/-! ## Who could be reached throughout -/

/-- Where a worker has a client on its way. -/
def HasReached (client : Id) (s : BroadcastStore π) : SendPlace → Prop
  | .computed targets _ => client ∈ targets
  | .sending todo _ _ => client ∈ s.messaged ∨ client ∈ todo
  | .next c todo _ _ => client ∈ s.messaged ∨ client ∈ c :: todo
  | .looked c todo _ _ found _ => client ∈ s.messaged ∨ client ∈ todo ∨ client = c ∧ found ≠ none
  | .finishing => client ∈ s.messaged
  | _ => True

theorem HasReached.mono {client : Id} {y : SendPlace} (h : HasReached client s y)
    (hm : ∀ c ∈ s.messaged, c ∈ s'.messaged) : HasReached client s' y := by
  cases y with
  | computed targets excluded => exact h
  | sending todo count excluded => exact h.imp (hm client) id
  | next c todo count excluded => exact h.imp (hm client) id
  | looked c todo count excluded found read => exact h.imp (hm client) id
  | finishing => exact hm client h
  | _ => trivial

section
variable [DecidableEq π] {x x' : SendPlace}

theorem SendStep.messaged_mono (hs : SendStep p s x s' x') : ∀ c ∈ s.messaged, c ∈ s'.messaged := by
  cases hs with
  | @message client todo count excluded number read => exact messaged_mono_add client number read
  | _ => exact fun _ hc => hc

theorem SendStep.audience_eq (hs : SendStep p s x s' x') : s'.audience = s.audience := by
  cases hs <;> rfl

theorem SendStep.hasReached (hs : SendStep p s x s' x') (hn : (s.clients.map CastClient.id).Nodup)
    {a : BroadcastAudience} (ha : s.audience = some a) {client : Id} (hr : client ∈ s.recipients a)
    (h : HasReached client s x) : HasReached client s' x' := by
  cases hs with
  | @compute a' ha' =>
    obtain rfl := Option.some.inj (ha.symm.trans ha')
    exact hr
  | start => exact .inr h
  | expire => exact h
  | claimNext hl hst => exact h
  | @already c todo count excluded hm =>
    obtain h | h := h
    · exact .inl h
    · obtain rfl | h := List.mem_cons.1 h
      · exact .inl (alreadyMessaged_iff.1 hm)
      · exact .inr h
  | @look c todo count excluded hm =>
    obtain h | h := h
    · exact .inl h
    · obtain rfl | h := List.mem_cons.1 h
      · exact .inr (.inr ⟨rfl, stillReachable_of_recipient hn hr⟩)
      · exact .inr (.inl h)
  | gone => exact h.imp id fun h => h.resolve_right fun he => he.2 rfl
  | @message c todo count excluded number read =>
    have hadd : ∀ c' ∈ s.messaged ++ [c], c' ∈ (s.addMessage c number read).messaged := fun c' hc => by
      rw [messaged_addMessage]
      exact hc
    obtain h | h | ⟨rfl, -⟩ := h
    · exact .inl (hadd client (List.mem_append_left _ h))
    · exact .inr h
    · exact .inl (hadd client (List.mem_append_right _ List.mem_cons_self))
  | claimLast hl hst => exact h.resolve_right List.not_mem_nil
  | _ => trivial

theorem SendStep.sent_messaged (hs : SendStep p s x s' x') {client : Id} (hx : HasReached client s x)
    (h : s.status = .sent → client ∈ s.messaged) : s'.status = .sent → client ∈ s'.messaged := by
  intro hst
  cases hs with
  | cancel hl hs => cases hst
  | invalid ha => cases hst
  | start => cases hst
  | sent => exact hx
  | @message c todo count excluded number read => exact messaged_mono_add c number read client (h hst)
  | _ => exact h hst

end

/-! ## Runs -/

/-- A broadcast that no worker has begun. -/
structure CastReady (w : World π (BroadcastStore π) SendPlace) : Prop where
  idle : ∀ p, w.place p = .idle
  clients : (w.store.clients.map CastClient.id).Nodup
  status : w.store.status.claimable = true
  messages : w.store.messages = []
  last : w.store.last = none
  counted : w.store.counted = []
  atCancel : w.store.atCancel = none

theorem CastReady.knows {w : World π (BroadcastStore π) SendPlace} (h : CastReady w) :
    Knows MessagesKept SendKnows w := by
  refine ⟨⟨h.clients, ?_, ?_, ?_⟩, fun p => by rw [h.idle]; trivial⟩
  · rw [messaged, h.messages]
    exact .nil
  · rw [h.messages]
    exact fun _ hm => (List.not_mem_nil hm).elim
  · rw [h.atCancel]
    exact fun _ hm => by cases hm

/-- What is known of a run whose steps are all counted. -/
structure CastKnown (w : World π (BroadcastStore π) SendPlace) : Prop where
  messages : Knows MessagesKept SendKnows w
  counts : Knows CountsKept CountKnows w

theorem castKnown_step [DecidableEq π] {w w' : World π (BroadcastStore π) SendPlace} (h : CastKnown w)
    (hs : CountedStep w p w') : CastKnown w' := by
  refine ⟨messages_kept.preserved hs.step h.messages, ?_⟩
  obtain ⟨hs, hstart, hgone, hmessage, hsent⟩ := hs
  obtain ⟨hk, hp⟩ := h.counts
  cases hs with
  | @step t x' hs =>
    have hidle : x' ≠ .idle → (Function.update w.place p x') p ≠ .idle := fun hne => by
      rw [Function.update_self]
      exact hne
    have hmove : CountedMove p w.store (w.place p) t x' := by
      refine ⟨fun targets excluded hx hne => hstart targets excluded hx (hidle hne),
        fun client todo count excluded read hx hne => hgone client todo count excluded read hx (hidle hne),
        fun client todo count excluded number read hx hne => hmessage client todo count excluded number read hx (hidle hne),
        fun hx hst => ?_⟩
      obtain ⟨q, hlast, hthrough⟩ := hsent hx hst
      exact ⟨by rw [hlast]; exact Option.some_ne_none q, (hp q).through hthrough hlast⟩
    refine ⟨hs.countsKept (h.messages.2 p) (hp p) hmove hk, fun q => ?_⟩
    by_cases hq : q = p
    · subst hq
      show CountKnows q _ (Function.update w.place q _ q)
      rw [Function.update_self]
      exact hs.countKnows_own h.messages.1 (hp q)
    · show CountKnows q _ (Function.update w.place p _ q)
      rw [Function.update_of_ne hq]
      exact hs.countKnows_others hmove hq (hp q)

theorem CastReady.counts {w : World π (BroadcastStore π) SendPlace} (h : CastReady w) : Knows CountsKept CountKnows w := by
  refine ⟨⟨fun hl => absurd h.last hl, ?_, ?_, fun hst => ?_⟩, fun p => by rw [h.idle]; trivial⟩
  · rw [h.counted]
    exact .nil
  · rw [messaged, h.messages]
    exact fun _ hc => (List.not_mem_nil hc).elim
  · have := h.status
    rw [hst] at this
    cases this

theorem CastKnown.count_eq {w : World π (BroadcastStore π) SendPlace} (h : CastKnown w) (hst : w.store.status = .sent) :
    w.store.recipientCount = w.store.messages.length := by
  obtain ⟨hm, -⟩ := h.messages
  obtain ⟨hc, -⟩ := h.counts
  obtain ⟨hlast, hall⟩ := hc.sent hst
  have hperm : w.store.counted.Perm w.store.messaged :=
    (List.perm_ext_iff_of_nodup hc.nodup hm.once).2 fun c => ⟨hall c, hc.messaged c⟩
  rw [hc.count hlast, hperm.length_eq, messaged, List.length_map]

/-- A step of a run in which a client can be reached throughout. -/
def ReachableStep [DecidableEq π] (a : BroadcastAudience) (client : Id) (w : World π (BroadcastStore π) SendPlace) (p : π)
    (w' : World π (BroadcastStore π) SendPlace) : Prop :=
  Interleaved SendStep w p w' ∧ client ∈ w'.store.recipients a

theorem reachable_messaged [DecidableEq π] {w w' : World π (BroadcastStore π) SendPlace} {ps : List π} (h0 : CastReady w)
    {a : BroadcastAudience} (ha : w.store.audience = some a) {client : Id} (hc : client ∈ w.store.recipients a)
    (hr : Run (ReachableStep a client) w ps w') : w'.store.status = .sent → client ∈ w'.store.messaged := by
  have hinv : Knows MessagesKept SendKnows w' ∧ w'.store.audience = some a ∧ client ∈ w'.store.recipients a ∧
      (∀ p, HasReached client w'.store (w'.place p)) ∧ (w'.store.status = .sent → client ∈ w'.store.messaged) := by
    refine hr.invariant (I := fun w' => Knows MessagesKept SendKnows w' ∧ w'.store.audience = some a ∧
      client ∈ w'.store.recipients a ∧ (∀ p, HasReached client w'.store (w'.place p)) ∧
      (w'.store.status = .sent → client ∈ w'.store.messaged)) ?_ ?_
    · rintro w p w' ⟨hk, ha, hc, hp, hsent⟩ ⟨hs, hc'⟩
      have hk' := messages_kept.preserved hs hk
      cases hs with
      | step hs =>
        refine ⟨hk', hs.audience_eq.trans ha, hc', fun q => ?_, hs.sent_messaged (hp p) hsent⟩
        by_cases hq : q = p
        · subst hq
          show HasReached client _ (Function.update w.place q _ q)
          rw [Function.update_self]
          exact hs.hasReached hk.1.clients ha hc (hp q)
        · show HasReached client _ (Function.update w.place p _ q)
          rw [Function.update_of_ne hq]
          exact (hp q).mono hs.messaged_mono
    · refine ⟨h0.knows, ha, hc, fun p => by rw [h0.idle]; trivial, fun hst => ?_⟩
      have := h0.status
      rw [hst] at this
      cases this
  exact hinv.2.2.2.2

/-- Each client once, none that cannot be reached and none after a cancel, in every run; as many as
are counted, when the counts are kept by who computed them; and all that could be reached. -/
theorem broadcast_sent_right [DecidableEq π] {w : World π (BroadcastStore π) SendPlace} (h0 : CastReady w) :
    (∀ ps w', Run (Interleaved SendStep) w ps w' → CastRight w'.store) ∧
    (∀ ps w', Run CountedStep w ps w' → w'.store.status = .sent → w'.store.recipientCount = w'.store.messages.length) ∧
    ∀ a client ps w', w.store.audience = some a → client ∈ w.store.recipients a → Run (ReachableStep a client) w ps w' →
      w'.store.status = .sent → client ∈ w'.store.messaged := by
  refine ⟨fun ps w' hr => ?_, fun ps w' hr => ?_, fun a client ps w' ha hc hr => reachable_messaged h0 ha hc hr⟩
  · obtain ⟨hm, -⟩ := messages_kept.run hr h0.knows
    exact ⟨hm.once, hm.reached, fun messages ha => (hm.canceled messages ha).1⟩
  · exact (hr.invariant (I := CastKnown) (fun _ _ _ hi hs => castKnown_step hi hs) ⟨h0.knows, h0.counts⟩).count_eq

/-! ## A broadcast that is resumed -/

def castAmy : CastClient := ⟨"amy", true, [], some "+1418", some .granted⟩

def castBen : CastClient := ⟨"ben", true, [], some "+1514", some .granted⟩

/-- Two clients who agreed, and a broadcast to all. -/
def newsletter {π : Type} : BroadcastStore π where
  clients := [castAmy, castBen]
  stopped := fun _ => false
  clock := 0
  audience := some ⟨true, []⟩
  status := .sending
  recipientCount := 2
  excludedCount := 0
  lock := none
  messages := []
  last := none
  counted := []
  atCancel := none

def newsletterWorld {π : Type} : World π (BroadcastStore π) SendPlace := ⟨newsletter, fun _ => .idle⟩

theorem newsletter_ready {π : Type} : CastReady (π := π) newsletterWorld where
  idle _ := rfl
  clients := by show ["amy", "ben"].Nodup; decide
  status := rfl
  messages := rfl
  last := rfl
  counted := rfl
  atCancel := rfl

/-- Places that ask nothing of a counted step. -/
def SendPlace.quiet : SendPlace → Bool
  | .computed _ _ | .looked _ _ _ _ _ _ | .finishing => false
  | _ => true

theorem counted_quiet [DecidableEq π] {w w' : World π (BroadcastStore π) SendPlace} (h : Interleaved SendStep w p w')
    (hq : (w.place p).quiet = true) : CountedStep w p w' := by
  refine ⟨h, fun targets excluded hp => ?_, fun client todo count excluded read hp => ?_,
    fun client todo count excluded number read hp => ?_, fun hp => ?_⟩ <;>
  · rw [hp] at hq
    cases hq

/-- Where two workers are. -/
def castPlaces (x y : SendPlace) : Bool → SendPlace
  | true => x
  | false => y

section
variable {s s' : BroadcastStore Bool} {x x' y y' : SendPlace}

theorem castPlaces_first (h : SendStep true s x s' x') :
    Interleaved SendStep ⟨s, castPlaces x y⟩ true ⟨s', castPlaces x' y⟩ := by
  have hplaces : Function.update (castPlaces x y) true x' = castPlaces x' y := by
    funext p
    cases p <;> rfl
  exact hplaces ▸ .from rfl h

theorem castPlaces_second (h : SendStep false s y s' y') :
    Interleaved SendStep ⟨s, castPlaces x y⟩ false ⟨s', castPlaces x y'⟩ := by
  have hplaces : Function.update (castPlaces x y) false y' = castPlaces x y' := by
    funext p
    cases p <;> rfl
  exact hplaces ▸ .from rfl h

end

section
variable [DecidableEq π] {w w' : World π (BroadcastStore π) SendPlace}

theorem counted_start (h : Interleaved SendStep w p w') {targets : List Id} {excluded : Int}
    (hp : w.place p = .computed targets excluded) (hm : ∀ c ∈ w.store.messaged, c ∈ targets) : CountedStep w p w' := by
  refine ⟨h, fun _ _ hl _ => ?_, fun _ _ _ _ _ hl => ?_, fun _ _ _ _ _ _ hl => ?_, fun hl => ?_⟩
  · obtain ⟨rfl, -⟩ := SendPlace.computed.inj (hp.symm.trans hl)
    exact hm
  all_goals
    rw [hp] at hl
    cases hl

theorem counted_message (h : Interleaved SendStep w p w') {client number : Id} {todo : List Id} {count excluded : Int}
    {read : ClientRead} (hp : w.place p = .looked client todo count excluded (some number) read)
    (hc : client ∈ w.store.counted) : CountedStep w p w' := by
  refine ⟨h, fun _ _ hl => ?_, fun _ _ _ _ _ hl => ?_, fun _ _ _ _ _ _ hl _ => ?_, fun hl => ?_⟩
  · rw [hp] at hl
    cases hl
  · rw [hp] at hl
    cases hl
  · obtain ⟨rfl, -⟩ := SendPlace.looked.inj (hp.symm.trans hl)
    exact hc
  · rw [hp] at hl
    cases hl

theorem counted_sent (h : Interleaved SendStep w p w') (hp : w.place p = .finishing) (hl : w.store.last = some q)
    (hq : (w.place q).through = true) : CountedStep w p w' := by
  refine ⟨h, fun _ _ hc => ?_, fun _ _ _ _ _ hc => ?_, fun _ _ _ _ _ _ hc => ?_, fun _ _ => ⟨q, hl, hq⟩⟩ <;>
  · rw [hp] at hc
    cases hc

end

/-- The newsletter once a worker counted both: who holds the row, the messages, and who counted last. -/
def newsletterSending (lock : Option Bool) (messages : List BroadcastMessage) (last : Bool) : BroadcastStore Bool :=
  { newsletter (π := Bool) with lock := lock, messages := messages, last := some last, counted := ["amy", "ben"] }

def amyTexted : BroadcastMessage := ⟨"amy", "+1418", ⟨some castAmy, false, 0⟩⟩

def benTexted : BroadcastMessage := ⟨"ben", "+1514", ⟨some castBen, false, 0⟩⟩

theorem newsletter_run : ∃ ps, Run CountedStep ⟨newsletter, castPlaces .idle .idle⟩ ps
    ⟨{ newsletterSending none [amyTexted, benTexted] false with status := .sent }, castPlaces .idle (.sending [] 2 0)⟩ := by
  have hclaim : SendStep true newsletter .idle { newsletter with lock := some true } .claimed := .claim rfl rfl
  have hcompute : SendStep true { newsletter with lock := some true } .claimed { newsletter with lock := some true }
    (.computed ["amy", "ben"] 0) := .compute (a := ⟨true, []⟩) rfl
  have hstart : SendStep true { newsletter with lock := some true } (.computed ["amy", "ben"] 0)
    (newsletterSending none [] true) (.sending ["amy", "ben"] 2 0) := .start
  have hclaim' : SendStep false (newsletterSending none [] true) .idle (newsletterSending (some false) [] true) .claimed :=
    .claim rfl rfl
  have hcompute' : SendStep false (newsletterSending (some false) [] true) .claimed (newsletterSending (some false) [] true)
    (.computed ["amy", "ben"] 0) := .compute (a := ⟨true, []⟩) rfl
  have hstart' : SendStep false (newsletterSending (some false) [] true) (.computed ["amy", "ben"] 0)
    (newsletterSending none [] false) (.sending ["amy", "ben"] 2 0) := .start
  -- the first texts Amy
  have hnext : SendStep true (newsletterSending none [] false) (.sending ["amy", "ben"] 2 0)
    (newsletterSending (some true) [] false) (.next "amy" ["ben"] 2 0) := .claimNext rfl rfl
  have hlook : SendStep true (newsletterSending (some true) [] false) (.next "amy" ["ben"] 2 0)
    (newsletterSending (some true) [] false) (.looked "amy" ["ben"] 2 0 (some "+1418") amyTexted.read) := .look rfl
  have hmessage : SendStep true (newsletterSending (some true) [] false)
    (.looked "amy" ["ben"] 2 0 (some "+1418") amyTexted.read) (newsletterSending none [amyTexted] false)
    (.sending ["ben"] 2 0) := .message
  -- the second finds her texted, and texts Ben
  have hnext' : SendStep false (newsletterSending none [amyTexted] false) (.sending ["amy", "ben"] 2 0)
    (newsletterSending (some false) [amyTexted] false) (.next "amy" ["ben"] 2 0) := .claimNext rfl rfl
  have halready' : SendStep false (newsletterSending (some false) [amyTexted] false) (.next "amy" ["ben"] 2 0)
    (newsletterSending none [amyTexted] false) (.sending ["ben"] 2 0) := .already rfl
  have hben : SendStep false (newsletterSending none [amyTexted] false) (.sending ["ben"] 2 0)
    (newsletterSending (some false) [amyTexted] false) (.next "ben" [] 2 0) := .claimNext rfl rfl
  have hlook' : SendStep false (newsletterSending (some false) [amyTexted] false) (.next "ben" [] 2 0)
    (newsletterSending (some false) [amyTexted] false) (.looked "ben" [] 2 0 (some "+1514") benTexted.read) := .look rfl
  have hmessage' : SendStep false (newsletterSending (some false) [amyTexted] false)
    (.looked "ben" [] 2 0 (some "+1514") benTexted.read) (newsletterSending none [amyTexted, benTexted] false)
    (.sending [] 2 0) := .message
  -- the first has Ben left, and is done
  have hlast : SendStep true (newsletterSending none [amyTexted, benTexted] false) (.sending ["ben"] 2 0)
    (newsletterSending (some true) [amyTexted, benTexted] false) (.next "ben" [] 2 0) := .claimNext rfl rfl
  have halready : SendStep true (newsletterSending (some true) [amyTexted, benTexted] false) (.next "ben" [] 2 0)
    (newsletterSending none [amyTexted, benTexted] false) (.sending [] 2 0) := .already rfl
  have hfinish : SendStep true (newsletterSending none [amyTexted, benTexted] false) (.sending [] 2 0)
    (newsletterSending (some true) [amyTexted, benTexted] false) .finishing := .claimLast rfl rfl
  have hsent : SendStep true (newsletterSending (some true) [amyTexted, benTexted] false) .finishing
    { newsletterSending none [amyTexted, benTexted] false with status := .sent } .idle := .sent
  exact ⟨_, .cons (counted_quiet (castPlaces_first hclaim) rfl) <|
    .cons (counted_quiet (castPlaces_first hcompute) rfl) <|
    .cons (counted_start (castPlaces_first hstart) rfl fun _ hc => absurd hc List.not_mem_nil) <|
    .cons (counted_quiet (castPlaces_second hclaim') rfl) <|
    .cons (counted_quiet (castPlaces_second hcompute') rfl) <|
    .cons (counted_start (castPlaces_second hstart') rfl fun _ hc => absurd hc List.not_mem_nil) <|
    .cons (counted_quiet (castPlaces_first hnext) rfl) <|
    .cons (counted_quiet (castPlaces_first hlook) rfl) <|
    .cons (counted_message (castPlaces_first hmessage) rfl List.mem_cons_self) <|
    .cons (counted_quiet (castPlaces_second hnext') rfl) <|
    .cons (counted_quiet (castPlaces_second halready') rfl) <|
    .cons (counted_quiet (castPlaces_second hben) rfl) <|
    .cons (counted_quiet (castPlaces_second hlook') rfl) <|
    .cons (counted_message (castPlaces_second hmessage') rfl (List.mem_cons_of_mem _ List.mem_cons_self)) <|
    .cons (counted_quiet (castPlaces_first hlast) rfl) <|
    .cons (counted_quiet (castPlaces_first halready) rfl) <|
    .cons (counted_quiet (castPlaces_first hfinish) rfl) <|
    .cons (counted_sent (q := false) (castPlaces_first hsent) rfl rfl rfl) .nil⟩

/-- Two workers send it, each to one of the two; the first marks it sent when the second, which counted last, has gone
through both. -/
theorem newsletter_sent : ∃ w' : World Bool (BroadcastStore Bool) SendPlace,
    w'.store.status = .sent ∧ w'.store.messages = [amyTexted, benTexted] ∧
      w'.store.recipientCount = w'.store.messages.length := by
  have hidle : castPlaces .idle .idle = fun _ => .idle := by
    funext p
    cases p <;> rfl
  obtain ⟨ps, hrun⟩ := newsletter_run
  rw [hidle] at hrun
  exact ⟨_, rfl, rfl, (broadcast_sent_right newsletter_ready).2.1 _ _ hrun rfl⟩

/-- A worker texts Amy and stops; Amy replies STOP; the next run counts Ben alone, and texts him. -/
theorem resumed_count_short : ∃ (w' : World Unit (BroadcastStore Unit) SendPlace) (ps : List Unit),
    CastReady (π := Unit) newsletterWorld ∧ Run (Interleaved SendStep) newsletterWorld ps w' ∧
    w'.store.status = .sent ∧ w'.store.recipientCount = 1 ∧ w'.store.messaged = ["amy", "ben"] := by
  have hr : Run (Interleaved SendStep) newsletterWorld
      [(), (), (), (), (), (), (), (), (), (), (), (), (), (), (), ()] _ :=
    .cons (.from rfl (@SendStep.claim Unit _ () newsletter rfl rfl)) <|
    .cons (.from rfl (@SendStep.compute Unit _ () _ ⟨true, []⟩ rfl)) <|
    .cons (.from (x := .computed ["amy", "ben"] 0) rfl (@SendStep.start Unit _ () _ ["amy", "ben"] 0)) <|
    .cons (.from rfl (@SendStep.claimNext Unit _ () _ "amy" ["ben"] 2 0 rfl rfl)) <|
    .cons (.from rfl (@SendStep.look Unit _ () _ "amy" ["ben"] 2 0 rfl)) <|
    .cons (.from (x := .looked "amy" ["ben"] 2 0 (some "+1418") ⟨some castAmy, false, 0⟩) rfl
      (@SendStep.message Unit _ () _ "amy" ["ben"] 2 0 "+1418" _)) <|
    .cons (.from rfl (@SendStep.stop Unit _ () _ _)) <|
    .cons (.from rfl (@SendStep.change Unit _ () _ (newsletter (π := Unit)).clients (fun n => decide (n = "+1418")) 60
      (by show ["amy", "ben"].Nodup; decide))) <|
    .cons (.from rfl (@SendStep.claim Unit _ () _ rfl rfl)) <|
    .cons (.from rfl (@SendStep.compute Unit _ () _ ⟨true, []⟩ rfl)) <|
    .cons (.from (x := .computed ["ben"] 1) rfl (@SendStep.start Unit _ () _ ["ben"] 1)) <|
    .cons (.from rfl (@SendStep.claimNext Unit _ () _ "ben" [] 1 1 rfl rfl)) <|
    .cons (.from rfl (@SendStep.look Unit _ () _ "ben" [] 1 1 rfl)) <|
    .cons (.from (x := .looked "ben" [] 1 1 (some "+1514") ⟨some castBen, false, 60⟩) rfl
      (@SendStep.message Unit _ () _ "ben" [] 1 1 "+1514" _)) <|
    .cons (.from rfl (@SendStep.claimLast Unit _ () _ 1 1 rfl rfl)) <|
    .cons (.from rfl (@SendStep.sent Unit _ () _)) .nil
  exact ⟨_, _, newsletter_ready, hr, rfl, rfl, rfl⟩

end ClientBridge
