import AtvRemote.Hds.Steps
import AtvRemote.Lib.Table

/-!
# Requests and their responses

`_responses` is written by three parties: `send_request` before it sends and in its `finally`
block, the reader when a response comes, and `close`.  `RequestTable` is what they keep up between
them: an entry belongs to a call that has not ended and has the entry's id, every future that is
not done has its entry, and no two such calls have one id.

The last point is where the code can go wrong.  `send_request` draws an id that is not in
`_responses`, but the entry of a call that is answered is gone before the call has ended.  A
second call that draws the same id in between loses its entry to the `finally` block of the
first one.  As long as no call draws the id of a call that has not ended (`Label.DrawsFresh`),
requests and responses belong together (`requests_of_fresh`).
-/

namespace AtvRemote.Hds.HDSConnection

open Lib Relation

/-- The exception that `close` puts into a future. -/
def closedError : PyErr := .connectionError "HDS connection closed"

/-! ## The invariant -/

/-- What holds of the call at a place. -/
structure Matched (responses : Dict Int Nat) (received : List Response) (closed : Bool) (i : Nat)
    (k : Call) : Prop where
  /-- The calls of `send_request` have a future. -/
  future : k.future.isSome = k.requestId.isSome
  /-- A future that is not done is in `_responses`. -/
  registered : ∀ requestId, k.requestId = some requestId → k.future = some .pending →
    responses.get requestId = some i
  settled : k.pc.ended = true → k.future ≠ some .pending
  answered : ∀ status message, k.future = some (.result status message) →
    ∃ r ∈ received, r.completed = some i ∧ r.status = status ∧ r.message = message
  returned : ∀ status message, k.pc = .returned (some (status, message)) →
    k.future = some (.result status message)
  /-- A call that returns nothing has no future. -/
  plain : k.pc = .returned none → k.future = none
  failed : ∀ e, k.future = some (.failed e) → e = closedError
  cancelled : k.future = some .cancelled → k.pc.ended = true ∨ ∃ e, k.pc = .abandoned e
  /-- Behind its frame, a call does not wait for a closed connection. -/
  closed : closed = true → k.pc = .draining ∨ k.pc = .awaiting → k.future ≠ some .pending

/-- The calls, the entries of `_responses` and the responses that were received fit together. -/
structure RequestTable (responses : Dict Int Nat) (calls : List Call) (received : List Response)
    (closed : Bool) : Prop where
  matched : ∀ (i : Nat) (k : Call), calls[i]? = some k → Matched responses received closed i k
  /-- An entry belongs to a call that has not ended. -/
  outstanding : ∀ requestId i, responses.get requestId = some i →
    ∃ k, calls[i]? = some k ∧ k.requestId = some requestId ∧ k.pc.ended = false
  /-- No two calls that have not ended have one id. -/
  distinct : ∀ (i j : Nat) (k k' : Call) (requestId : Int), calls[i]? = some k →
    calls[j]? = some k' → k.requestId = some requestId → k'.requestId = some requestId →
    k.pc.ended = false → k'.pc.ended = false → i = j
  /-- A response completes a call that has its id. -/
  completed : ∀ r ∈ received, ∀ i, r.completed = some i →
    ∃ k, calls[i]? = some k ∧ k.requestId = some r.requestId ∧ k.future ≠ some .pending
  /-- No call is completed twice. -/
  once : (received.filterMap Response.completed).Nodup

variable {aead : Aead} {reprOf : Obj → String} {c c' : HDSConnection}
  {responses responses' : Dict Int Nat} {calls : List Call} {received received' : List Response}
  {closed : Bool} {i : Nat} {k : Call}

/-- A call stays matched as long as its entry stays. -/
theorem Matched.mono (h : Matched responses received closed i k)
    (hresponses : ∀ requestId, responses.get requestId = some i →
      responses'.get requestId = some i)
    (hreceived : ∀ r ∈ received, r ∈ received') : Matched responses' received' closed i k where
  future := h.future
  registered requestId hid hpending := hresponses requestId (h.registered requestId hid hpending)
  settled := h.settled
  answered status message hresult := by
    obtain ⟨r, hr, hcompleted⟩ := h.answered status message hresult
    exact ⟨r, hreceived r hr, hcompleted⟩
  returned := h.returned
  plain := h.plain
  failed := h.failed
  cancelled := h.cancelled
  closed := h.closed

/-- A call ends: its future is done, and it returns only what is in the future. -/
theorem Matched.ends (h : Matched responses received closed i k)
    (responses' : Dict Int Nat) {pc : CallPc}
    (hended : pc.ended = true)
    (hreturned : ∀ status message, pc = .returned (some (status, message)) →
      k.future = some (.result status message))
    (hplain : pc = .returned none → k.future = none) :
    Matched responses' received closed i { k.settle .cancelled with pc } := by
  by_cases hpending : k.future = some .pending
  · rw [Call.settle_of_pending _ hpending]
    refine ⟨?_, nofun, fun _ ↦ nofun, nofun, fun status message hpc ↦ ?_, fun hpc ↦ ?_, nofun,
      fun _ ↦ .inl hended, fun _ _ ↦ nofun⟩
    · have hsome := h.future
      rwa [hpending] at hsome
    · rw [hpending] at hreturned
      cases hreturned status message hpc
    · rw [hpending] at hplain
      cases hplain hpc
  · rw [Call.settle_of_done _ hpending]
    exact ⟨h.future, fun _ _ h ↦ (hpending h).elim, fun _ ↦ hpending, h.answered, hreturned,
      hplain, h.failed, fun _ ↦ .inl hended, fun _ _ ↦ hpending⟩

/-- A call goes on that has not given up. -/
theorem Matched.goto (h : Matched responses received closed i k) (hpc : k.pc.ended = false)
    (hgave : ∀ e, k.pc ≠ .abandoned e) {pc : CallPc} (hpc' : pc.ended = false)
    (hclosed : closed = true → k.future ≠ some .pending) :
    Matched responses received closed i { k with pc } where
  future := h.future
  registered := h.registered
  settled hended := by
    have hended : pc.ended = true := hended
    rw [hpc'] at hended
    cases hended
  answered := h.answered
  returned status message hreturned := by
    obtain rfl : pc = .returned (some (status, message)) := hreturned
    cases hpc'
  plain hreturned := by
    obtain rfl : pc = .returned none := hreturned
    cases hpc'
  failed := h.failed
  cancelled hcancelled := by
    rcases h.cancelled hcancelled with hended | ⟨e, he⟩
    · rw [hpc] at hended
      cases hended
    · exact (hgave e he).elim
  closed hc _ := hclosed hc

/-- A call begins that has no future. -/
theorem Matched.waiting {o : Outgoing} (hid : (⟨o, none, .waiting⟩ : Call).requestId = none) :
    Matched responses received closed i ⟨o, none, .waiting⟩ :=
  ⟨by rw [hid]; rfl, nofun, nofun, nofun, nofun, nofun, nofun, nofun, fun _ ↦ nofun⟩

/-- A call gives up waiting. -/
theorem Matched.abandon (h : Matched responses received closed i k) (e : PyErr) :
    Matched responses received closed i { k.settle .cancelled with pc := .abandoned e } := by
  by_cases hpending : k.future = some .pending
  · rw [Call.settle_of_pending _ hpending]
    refine ⟨?_, nofun, nofun, nofun, nofun, nofun, nofun, fun _ ↦ .inr ⟨e, rfl⟩, fun _ _ ↦ nofun⟩
    have hsome := h.future
    rwa [hpending] at hsome
  · rw [Call.settle_of_done _ hpending]
    exact ⟨h.future, fun _ _ h ↦ (hpending h).elim, nofun, h.answered, nofun, nofun, h.failed,
      fun _ ↦ .inr ⟨e, rfl⟩, fun _ _ ↦ hpending⟩

namespace RequestTable

/-- A call that has not ended changes; responses for it may be received. -/
theorem modify (h : RequestTable responses calls received closed) (hk : calls[i]? = some k)
    (responses' : Dict Int Nat) (more : List Response) {f : Call → Call}
    (hid : (f k).requestId = k.requestId)
    (hfuture : k.future ≠ some .pending → (f k).future ≠ some .pending)
    (hended : (f k).pc.ended = false → k.pc.ended = false)
    (hsub : ∀ requestId j, responses'.get requestId = some j →
      responses.get requestId = some j ∧ (j = i → (f k).pc.ended = false))
    (hkeep : ∀ requestId j, j ≠ i → responses.get requestId = some j →
      responses'.get requestId = some j)
    (hmore : ∀ r ∈ more, ∀ j, r.completed = some j → j = i ∧ k.requestId = some r.requestId ∧
      k.future = some .pending ∧ (f k).future ≠ some .pending)
    (hone : (more.filterMap Response.completed).Nodup)
    (hmatched : Matched responses' (received ++ more) closed i (f k)) :
    RequestTable responses' (calls.modify i f) (received ++ more) closed where
  matched j k' hk' := by
    obtain ⟨k₀, hk₀, rfl⟩ := getElem?_modify_eq_some.mp hk'
    split
    · next heq =>
      subst heq
      obtain rfl := Option.some.inj (hk.symm.trans hk₀)
      exact hmatched
    · next hne =>
      exact (h.matched j k₀ hk₀).mono (fun requestId ↦ hkeep requestId j hne)
        fun r hr ↦ List.mem_append_left _ hr
  outstanding requestId j hj := by
    obtain ⟨hj, hi⟩ := hsub requestId j hj
    obtain ⟨k₀, hk₀, hid₀, hpc₀⟩ := h.outstanding requestId j hj
    refine ⟨_, getElem?_modify_eq_some.mpr ⟨k₀, hk₀, rfl⟩, ?_⟩
    split
    · next heq =>
      subst heq
      obtain rfl := Option.some.inj (hk.symm.trans hk₀)
      exact ⟨hid.trans hid₀, hi rfl⟩
    · exact ⟨hid₀, hpc₀⟩
  distinct := by
    have hback : ∀ (j : Nat) (k' : Call), (calls.modify i f)[j]? = some k' →
        ∃ k₀, calls[j]? = some k₀ ∧ k'.requestId = k₀.requestId ∧
          (k'.pc.ended = false → k₀.pc.ended = false) := by
      intro j k' hk'
      obtain ⟨k₀, hk₀, rfl⟩ := getElem?_modify_eq_some.mp hk'
      refine ⟨k₀, hk₀, ?_⟩
      split
      · next heq =>
        subst heq
        obtain rfl := Option.some.inj (hk.symm.trans hk₀)
        exact ⟨hid, hended⟩
      · exact ⟨rfl, fun h ↦ h⟩
    intro j j' k₁ k₂ requestId hk₁ hk₂ hid₁ hid₂ hpc₁ hpc₂
    obtain ⟨k₁', hk₁', hid₁', hpc₁'⟩ := hback j k₁ hk₁
    obtain ⟨k₂', hk₂', hid₂', hpc₂'⟩ := hback j' k₂ hk₂
    exact h.distinct j j' k₁' k₂' requestId hk₁' hk₂' (hid₁'.symm.trans hid₁)
      (hid₂'.symm.trans hid₂) (hpc₁' hpc₁) (hpc₂' hpc₂)
  completed r hr j hj := by
    rcases List.mem_append.mp hr with hr | hr
    · obtain ⟨k₀, hk₀, hid₀, hfuture₀⟩ := h.completed r hr j hj
      refine ⟨_, getElem?_modify_eq_some.mpr ⟨k₀, hk₀, rfl⟩, ?_⟩
      split
      · next heq =>
        subst heq
        obtain rfl := Option.some.inj (hk.symm.trans hk₀)
        exact ⟨hid.trans hid₀, hfuture hfuture₀⟩
      · exact ⟨hid₀, hfuture₀⟩
    · obtain ⟨rfl, hid₀, -, hfuture₀⟩ := hmore r hr j hj
      exact ⟨_, getElem?_modify_eq_some.mpr ⟨k, hk, rfl⟩, by rw [if_pos rfl, hid, hid₀],
        by rwa [if_pos rfl]⟩
  once := by
    rw [List.filterMap_append, List.nodup_append]
    refine ⟨h.once, hone, ?_⟩
    rintro j hj j' hj' rfl
    obtain ⟨r, hr, hcompleted⟩ := List.mem_filterMap.mp hj
    obtain ⟨r', hr', hcompleted'⟩ := List.mem_filterMap.mp hj'
    obtain ⟨rfl, -, hpending, -⟩ := hmore r' hr' j hcompleted'
    obtain ⟨k₀, hk₀, -, hfuture₀⟩ := h.completed r hr j hcompleted
    obtain rfl := Option.some.inj (hk.symm.trans hk₀)
    exact hfuture₀ hpending

/-- A call that has not ended moves on, and nothing else changes. -/
theorem moves (h : RequestTable responses calls received closed) (hk : calls[i]? = some k)
    {f : Call → Call} (hid : (f k).requestId = k.requestId)
    (hfuture : k.future ≠ some .pending → (f k).future ≠ some .pending)
    (hended : (f k).pc.ended = k.pc.ended)
    (hmatched : Matched responses received closed i (f k)) :
    RequestTable responses (calls.modify i f) received closed := by
  have hmodify := h.modify hk responses [] hid hfuture
    (fun h ↦ hended ▸ h) (fun requestId j hj ↦ ⟨hj, fun heq ↦ ?_⟩) (fun _ _ _ hj ↦ hj)
    (fun _ hr ↦ by cases hr) List.nodup_nil (by rwa [List.append_nil])
  · rwa [List.append_nil] at hmodify
  · subst heq
    obtain ⟨k₀, hk₀, -, hpc₀⟩ := h.outstanding requestId j hj
    obtain rfl := Option.some.inj (hk.symm.trans hk₀)
    rw [hended, hpc₀]

/-- A call that has not ended ends; its entry goes, and its future is done. -/
theorem ends (h : RequestTable responses calls received closed) (hk : calls[i]? = some k)
    (hpc : k.pc.ended = false) {pc : CallPc} (hended : pc.ended = true)
    (hreturned : ∀ status message, pc = .returned (some (status, message)) →
      k.future = some (.result status message))
    (hplain : pc = .returned none → k.future = none) {requestId : Int}
    (hid : k.requestId = some requestId) :
    RequestTable (responses.erase requestId)
      (calls.modify i fun k ↦ { k.settle .cancelled with pc }) received closed := by
  have hold := h.matched i k hk
  have hdone : (k.settle .cancelled).future ≠ some .pending := by
    by_cases hpending : k.future = some .pending
    · rw [Call.settle_of_pending _ hpending]
      nofun
    · rwa [Call.settle_of_done _ hpending]
  have hmine : ∀ j, responses.get requestId = some j → j = i := by
    intro j hj
    obtain ⟨k', hk', hid', hpc'⟩ := h.outstanding requestId j hj
    exact h.distinct j i k' k requestId hk' hk hid' hid hpc' hpc
  have hmodify := h.modify hk (responses.erase requestId) []
    (f := fun k ↦ { k.settle .cancelled with pc }) (Call.requestId_settle k _) (fun _ ↦ hdone)
    (fun h ↦ by rw [hended] at h; cases h) (fun id j hj ↦ ?_) (fun id j hne hj ↦ ?_)
    (fun _ hr ↦ by cases hr) List.nodup_nil ?_
  · rwa [List.append_nil] at hmodify
  · obtain ⟨hne, hj⟩ := Dict.get_of_get_erase hj
    refine ⟨hj, fun heq ↦ ?_⟩
    subst heq
    obtain ⟨k', hk', hid', -⟩ := h.outstanding id j hj
    obtain rfl := Option.some.inj (hk.symm.trans hk')
    exact (hne (Option.some.inj (hid'.symm.trans hid))).elim
  · rwa [Dict.get_erase_of_ne]
    rintro rfl
    exact hne (hmine j hj)
  · rw [List.append_nil]
    exact hold.ends _ hended hreturned hplain

/-- A call that is not one of `send_request` ends. -/
theorem endsPlain (h : RequestTable responses calls received closed) (hk : calls[i]? = some k)
    (hid : k.requestId = none) {pc : CallPc} (hended : pc.ended = true)
    (hreturned : ∀ status message, pc = .returned (some (status, message)) →
      k.future = some (.result status message))
    (hplain : pc = .returned none → k.future = none) :
    RequestTable responses (calls.modify i fun k ↦ { k with pc }) received closed := by
  have hold := h.matched i k hk
  have hfuture : k.future = none := by
    rw [← Option.isSome_eq_false_iff.trans Option.isNone_iff_eq_none, hold.future, hid]
    rfl
  have hdone : k.future ≠ some .pending := by rw [hfuture]; nofun
  have hmatched := hold.ends responses hended hreturned hplain
  rw [Call.settle_of_done _ hdone] at hmatched
  have hmodify := h.modify hk responses [] (f := fun k ↦ { k with pc })
    rfl (fun h ↦ h) (fun h ↦ by rw [hended] at h; cases h)
    (fun id j hj ↦ ⟨hj, fun heq ↦ ?_⟩) (fun _ _ _ hj ↦ hj) (fun _ hr ↦ by cases hr)
    List.nodup_nil (by rwa [List.append_nil])
  · rwa [List.append_nil] at hmodify
  · subst heq
    obtain ⟨k', hk', hid', -⟩ := h.outstanding id j hj
    obtain rfl := Option.some.inj (hk.symm.trans hk')
    rw [hid] at hid'
    cases hid'

/-- A call begins that is not one of `send_request`. -/
theorem send (h : RequestTable responses calls received closed) (o : Outgoing)
    (ho : ∀ requestId, o.kind ≠ .request requestId) :
    RequestTable responses (calls ++ [⟨o, none, .waiting⟩]) received closed := by
  have hid : (⟨o, none, .waiting⟩ : Call).requestId = none := by
    rw [Call.requestId]
    split
    · next requestId heq => exact (ho requestId heq).elim
    · rfl
  constructor
  · intro j k hk
    rcases getElem?_concat_eq_some.mp hk with hold | ⟨rfl, rfl⟩
    · exact h.matched j k hold
    · exact .waiting hid
  · intro requestId j hj
    obtain ⟨k, hk, hk'⟩ := h.outstanding requestId j hj
    exact ⟨k, getElem?_concat_of_eq_some hk, hk'⟩
  · intro j j' k k' requestId hk hk' hid₁ hid₂
    rcases getElem?_concat_eq_some.mp hk with hold | ⟨rfl, rfl⟩
    · rcases getElem?_concat_eq_some.mp hk' with hold' | ⟨rfl, rfl⟩
      · exact h.distinct j j' k k' requestId hold hold' hid₁ hid₂
      · rw [hid] at hid₂
        cases hid₂
    · rw [hid] at hid₁
      cases hid₁
  · intro r hr j hj
    obtain ⟨k, hk, hk'⟩ := h.completed r hr j hj
    exact ⟨k, getElem?_concat_of_eq_some hk, hk'⟩
  · exact h.once

/-- A request begins with an id that is free, and that no call which has not ended has. -/
theorem request (h : RequestTable responses calls received closed) {requestId : Nat}
    (hfree : responses.get requestId = none)
    (hfresh : ∀ k ∈ calls, k.requestId = some (requestId : Int) → k.pc.ended = true)
    (protocol topic : PyStr) (message : Option Items) :
    RequestTable (responses.set requestId calls.length)
      (calls ++ [⟨⟨.request requestId, protocol, topic, message⟩, some .pending, .waiting⟩])
      received closed := by
  have hne : ∀ id j, responses.get id = some j → id ≠ requestId := by
    rintro id j hj rfl
    rw [hfree] at hj
    cases hj
  constructor
  · intro j k hk
    rcases getElem?_concat_eq_some.mp hk with hold | ⟨rfl, rfl⟩
    · refine (h.matched j k hold).mono (fun id hj ↦ ?_) fun _ hr ↦ hr
      rwa [Dict.get_set_of_ne (hne id j hj)]
    · refine ⟨rfl, fun id hid _ ↦ ?_, nofun, nofun, nofun, nofun, nofun, nofun, fun _ ↦ nofun⟩
      obtain rfl := Option.some.inj hid
      exact Dict.get_set_self ..
  · intro id j hj
    rw [Dict.get_set] at hj
    split at hj
    · next heq =>
      obtain rfl := Option.some.inj hj
      exact ⟨_, getElem?_concat_length _, by rw [heq]; rfl, rfl⟩
    · obtain ⟨k, hk, hk'⟩ := h.outstanding id j hj
      exact ⟨k, getElem?_concat_of_eq_some hk, hk'⟩
  · intro j j' k k' id hk hk' hid hid' hpc hpc'
    rcases getElem?_concat_eq_some.mp hk with hold | ⟨rfl, rfl⟩
    · rcases getElem?_concat_eq_some.mp hk' with hold' | ⟨rfl, rfl⟩
      · exact h.distinct j j' k k' id hold hold' hid hid' hpc hpc'
      · obtain rfl := Option.some.inj hid'
        rw [hfresh k (List.mem_of_getElem? hold) hid] at hpc
        cases hpc
    · rcases getElem?_concat_eq_some.mp hk' with hold' | ⟨rfl, rfl⟩
      · obtain rfl := Option.some.inj hid
        rw [hfresh k' (List.mem_of_getElem? hold') hid'] at hpc'
        cases hpc'
      · rfl
  · intro r hr j hj
    obtain ⟨k, hk, hk'⟩ := h.completed r hr j hj
    exact ⟨k, getElem?_concat_of_eq_some hk, hk'⟩
  · exact h.once

/-- A response comes under an id that is not in `_responses`. -/
theorem receiveUnknown (h : RequestTable responses calls received closed) {requestId : Int}
    (hnone : responses.get requestId = none) (status : Int) (message : Items) :
    RequestTable (responses.erase requestId) calls
      (received ++ [⟨requestId, status, message, none⟩]) closed where
  matched j k hk := by
    refine (h.matched j k hk).mono (fun id hj ↦ ?_) fun r hr ↦ List.mem_append_left _ hr
    rwa [Dict.get_erase_of_ne]
    rintro rfl
    rw [hnone] at hj
    cases hj
  outstanding id j hj := h.outstanding id j (Dict.get_of_get_erase hj).2
  distinct := h.distinct
  completed r hr j hj := by
    rcases List.mem_append.mp hr with hr | hr
    · exact h.completed r hr j hj
    · obtain rfl := List.mem_singleton.mp hr
      cases hj
  once := by
    rw [List.filterMap_append]
    simpa using h.once

/-- A response comes under the id of a call: it completes the call, if its future is not done. -/
theorem receive (h : RequestTable responses calls received closed) {requestId : Int}
    (hi : responses.get requestId = some i) (hk : calls[i]? = some k) (status : Int)
    (message : Items) {completed : Option Nat}
    (hcompleted : ∀ j, completed = some j ↔ j = i ∧ k.future = some .pending) :
    RequestTable (responses.erase requestId) (calls.modify i (·.settle (.result status message)))
      (received ++ [⟨requestId, status, message, completed⟩]) closed := by
  have hold := h.matched i k hk
  obtain ⟨k', hk', hid, hpc⟩ := h.outstanding requestId i hi
  obtain rfl := Option.some.inj (hk.symm.trans hk')
  have hdone : (k.settle (.result status message)).future ≠ some .pending := by
    by_cases hpending : k.future = some .pending
    · rw [Call.settle_of_pending _ hpending]
      nofun
    · rwa [Call.settle_of_done _ hpending]
  refine h.modify hk _ _ (Call.requestId_settle k _) (fun _ ↦ hdone)
    (fun h ↦ by rwa [Call.pc_settle] at h)
    (fun id j hj ↦ ⟨(Dict.get_of_get_erase hj).2, fun _ ↦ by rwa [Call.pc_settle]⟩)
    (fun id j hne hj ↦ ?_) (fun r hr j hj ↦ ?_) ?_ ?_
  · rwa [Dict.get_erase_of_ne]
    rintro rfl
    exact hne (Option.some.inj (hj.symm.trans hi))
  · obtain rfl := List.mem_singleton.mp hr
    obtain ⟨rfl, hpending⟩ := (hcompleted j).mp hj
    exact ⟨rfl, hid, hpending, hdone⟩
  · cases completed with
    | none => exact List.nodup_nil
    | some j => exact List.nodup_singleton j
  · by_cases hpending : k.future = some .pending
    · rw [Call.settle_of_pending _ hpending]
      refine ⟨?_, nofun, fun _ ↦ nofun, fun status' message' hresult ↦ ?_,
        fun status' message' hpc' ↦ ?_, fun hpc' ↦ ?_, nofun, nofun, fun _ _ ↦ nofun⟩
      · have hsome := hold.future
        rwa [hpending] at hsome
      · obtain ⟨rfl, rfl⟩ := Future.result.inj (Option.some.inj hresult)
        exact ⟨_, List.mem_append_right _ (List.mem_singleton_self _),
          (hcompleted i).mpr ⟨rfl, hpending⟩, rfl, rfl⟩
      · rw [show k.pc = .returned (some (status', message')) from hpc'] at hpc
        cases hpc
      · rw [show k.pc = .returned none from hpc'] at hpc
        cases hpc
    · rw [Call.settle_of_done _ hpending]
      refine ⟨hold.future, fun _ _ h ↦ (hpending h).elim, hold.settled, ?_, hold.returned,
        hold.plain, hold.failed, hold.cancelled, hold.closed⟩
      intro status' message' hresult
      obtain ⟨r, hr, hr'⟩ := hold.answered status' message' hresult
      exact ⟨r, List.mem_append_left _ hr, hr'⟩

end RequestTable

/-! ## Closing -/

/-- `close` fails each future in the list that is not done. -/
theorem getElem?_failCalls {is : List Nat} {j : Nat} {k' : Call} :
    (failCalls calls is)[j]? = some k' ↔ ∃ k, calls[j]? = some k ∧
      k' = if j ∈ is then k.settle (.failed closedError) else k := by
  rw [failCalls]
  induction is generalizing calls with
  | nil => simp
  | cons i is ih =>
      have htwice : ∀ k : Call, (if j ∈ is then
          (if j = i then k.settle (.failed closedError) else k).settle (.failed closedError)
          else if j = i then k.settle (.failed closedError) else k) =
          if j ∈ i :: is then k.settle (.failed closedError) else k := by
        intro k
        have hsettle := k.settle_settle (.failed closedError)
        by_cases hi : j = i <;> by_cases his : j ∈ is <;> simp [hi, his, hsettle]
      rw [List.foldl_cons, ih]
      constructor
      · rintro ⟨k₁, hk₁, rfl⟩
        obtain ⟨k, hk, rfl⟩ := getElem?_modify_eq_some.mp hk₁
        exact ⟨k, hk, htwice k⟩
      · rintro ⟨k, hk, rfl⟩
        exact ⟨_, getElem?_modify_eq_some.mpr ⟨k, hk, rfl⟩, (htwice k).symm⟩

/-- A call whose future is failed. -/
theorem Matched.fail (h : Matched responses received closed i k) :
    Matched .empty received true i (k.settle (.failed closedError)) := by
  by_cases hpending : k.future = some .pending
  · rw [Call.settle_of_pending _ hpending]
    refine ⟨?_, nofun, fun _ ↦ nofun, nofun, fun status message hpc ↦ ?_, fun hpc ↦ ?_,
      fun e he ↦ ?_, nofun, fun _ _ ↦ nofun⟩
    · have hsome := h.future
      rwa [hpending] at hsome
    · have hresult := h.returned status message hpc
      rw [hpending] at hresult
      cases hresult
    · have hnone := h.plain hpc
      rw [hpending] at hnone
      cases hnone
    · exact (Future.failed.inj (Option.some.inj he)).symm
  · rw [Call.settle_of_done _ hpending]
    exact ⟨h.future, fun _ _ h ↦ (hpending h).elim, h.settled, h.answered, h.returned, h.plain,
      h.failed, h.cancelled, fun _ _ ↦ hpending⟩

namespace RequestTable

/-- Closing fails every future that is not done. -/
theorem getElem?_close (h : RequestTable responses calls received closed) {j : Nat} {k' : Call} :
    (failCalls calls responses.values)[j]? = some k' ↔
      ∃ k, calls[j]? = some k ∧ k' = k.settle (.failed closedError) := by
  rw [getElem?_failCalls]
  refine exists_congr fun k ↦ and_congr_right fun hk ↦ ?_
  split
  · rfl
  · next hnot =>
    have hdone : k.future ≠ some .pending := by
      intro hpending
      have hsome := (h.matched j k hk).future
      rw [hpending] at hsome
      obtain ⟨requestId, hid⟩ := Option.isSome_iff_exists.mp hsome.symm
      have hentry := (h.matched j k hk).registered requestId hid hpending
      exact hnot (List.mem_map_of_mem (Dict.get_eq_some_iff.mp hentry))
    rw [Call.settle_of_done _ hdone]

theorem close (h : RequestTable responses calls received closed) :
    RequestTable .empty (failCalls calls responses.values) received true where
  matched j k' hk' := by
    obtain ⟨k, hk, rfl⟩ := h.getElem?_close.mp hk'
    exact (h.matched j k hk).fail
  outstanding _ _ hj := by cases hj
  distinct j j' k₁ k₂ requestId hk₁ hk₂ hid₁ hid₂ hpc₁ hpc₂ := by
    obtain ⟨k, hk, rfl⟩ := h.getElem?_close.mp hk₁
    obtain ⟨k', hk', rfl⟩ := h.getElem?_close.mp hk₂
    rw [Call.requestId_settle] at hid₁ hid₂
    rw [Call.pc_settle] at hpc₁ hpc₂
    exact h.distinct j j' k k' requestId hk hk' hid₁ hid₂ hpc₁ hpc₂
  completed r hr j hj := by
    obtain ⟨k, hk, hid, hdone⟩ := h.completed r hr j hj
    exact ⟨k, h.getElem?_close.mpr ⟨k, hk, (Call.settle_of_done _ hdone).symm⟩, hid, hdone⟩
  once := h.once

end RequestTable

/-! ## Every step keeps the invariant -/

/-- The call that a response would complete. -/
theorem pendingCall_eq_some {requestId : Int} :
    c.pendingCall requestId = some i ↔ c.responses.get requestId = some i ∧
      ∃ k, c.calls[i]? = some k ∧ k.future = some .pending := by
  rw [pendingCall, Option.filter_eq_some_iff]
  refine and_congr_right fun _ ↦ ?_
  rw [Option.any_eq_true]
  constructor
  · rintro ⟨f, hf, hdone⟩
    obtain ⟨k, hk, hf⟩ := Option.bind_eq_some_iff.mp hf
    cases f with
    | pending => exact ⟨k, hk, hf⟩
    | result | failed | cancelled => cases hdone
  · rintro ⟨k, hk, hf⟩
    exact ⟨.pending, by rw [hk]; exact hf, rfl⟩

/-- The calls, the entries of `_responses` and the responses of a connection fit together. -/
def Requests (c : HDSConnection) : Prop := RequestTable c.responses c.calls c.received c.closed

/-- The ids that are free: no call that has not ended has them. -/
def Fresh (c : HDSConnection) (requestId : Nat) : Prop :=
  ∀ k ∈ c.calls, k.requestId = some (requestId : Int) → k.pc.ended = true

namespace Requests

theorem new (session : Nat) (outKey inKey firstPayload buffer : Bytes) (eof : Bool) :
    (HDSConnection.new session outKey inKey firstPayload buffer eof).Requests where
  matched _ _ h := by cases h
  outstanding _ _ h := by cases h
  distinct _ _ _ _ _ h := by cases h
  completed _ h := by cases h
  once := List.nodup_nil

theorem endCall (h : c.Requests) (hk : c.calls[i]? = some k) (hpc : k.pc.ended = false)
    {pc : CallPc} (hended : pc.ended = true)
    (hreturned : ∀ status message, pc = .returned (some (status, message)) →
      k.future = some (.result status message))
    (hplain : pc = .returned none → k.future = none) : (c.endCall i pc).Requests := by
  rw [HDSConnection.endCall]
  cases hid : k.requestId with
  | none =>
      rw [hk, Option.bind_some, hid]
      exact h.endsPlain hk hid hended hreturned hplain
  | some requestId =>
      rw [hk, Option.bind_some, hid]
      have hends := h.ends hk hpc hended hreturned hplain hid
      simp only [Requests, goto, List.modify_modify_eq]
      exact hends

theorem sent (h : c.Requests) (hk : c.calls[i]? = some k) (hpc : k.pc = .draining) :
    (c.sent i k).Requests := by
  have hold := h.matched i k hk
  rw [HDSConnection.sent]
  split
  · refine h.moves hk (f := fun k ↦ { k with pc := .awaiting }) rfl id (by rw [hpc]; rfl) ?_
    exact hold.goto (by rw [hpc]; rfl) (by rw [hpc]; rintro _ ⟨⟩) rfl
      fun hclosed ↦ hold.closed hclosed (.inl hpc)
  · next hnone =>
    have hid : k.requestId = none := by
      rw [← Option.not_isSome_iff_eq_none, ← hold.future]
      exact hnone
    exact h.endsPlain hk hid rfl (by rintro _ _ ⟨⟩) fun _ ↦ Option.not_isSome_iff_eq_none.mp hnone

theorem abandon (h : c.Requests) (hk : c.calls[i]? = some k) (hpc : k.pc = .awaiting) (e : PyErr) :
    (c.abandon i e).Requests := by
  have hold := h.matched i k hk
  have hmoves := h.moves hk (f := fun k ↦ { k.settle .cancelled with pc := .abandoned e })
    (Call.requestId_settle k _) (fun hdone ↦ by rwa [Call.settle_of_done _ hdone])
    (by rw [hpc]; rfl) (hold.abandon e)
  simp only [Requests, HDSConnection.abandon, HDSConnection.goto, List.modify_modify_eq]
  exact hmoves

theorem resolve (h : c.Requests) (requestId status : Int) (message : Items) :
    (c.resolve requestId status message).Requests := by
  cases hi : c.responses.get requestId with
  | none =>
      have hnone : c.pendingCall requestId = none := by rw [pendingCall, hi, Option.filter_none]
      simp only [Requests, HDSConnection.resolve, hi, hnone]
      exact h.receiveUnknown hi status message
  | some i =>
      obtain ⟨k, hk, -⟩ := h.outstanding requestId i hi
      simp only [Requests, HDSConnection.resolve, hi]
      refine h.receive hi hk status message fun j ↦ ?_
      rw [pendingCall_eq_some, hi, Option.some.injEq, eq_comm]
      refine and_congr_right fun heq ↦ ?_
      rw [heq, hk]
      constructor
      · rintro ⟨k', hk', hpending⟩
        exact Option.some.inj hk' ▸ hpending
      · intro hpending
        exact ⟨k, rfl, hpending⟩

theorem callStep (h : CallStep aead Fresh c c') (hc : c.Requests) : c'.Requests := by
  cases h with
  | reader => exact hc
  | send o ho => exact hc.send o ho
  | request requestId protocol topic message hfree hfresh =>
      exact hc.request hfree hfresh protocol topic message
  | write i k payload n hk hpc hlock hopen hpayload hn =>
      refine hc.moves hk (f := fun k ↦ { k with pc := .draining }) rfl (fun h ↦ h)
        (by rw [hpc]; rfl) ?_
      exact (hc.matched i k hk).goto (by rw [hpc]; rfl) (by rw [hpc]; nofun) rfl
        fun hclosed ↦ by rw [hopen] at hclosed; cases hclosed
  | refused i k e hk hpc hframe => exact hc.endCall hk (by rw [hpc]; rfl) rfl nofun nofun
  | sent i k hk hpc => exact hc.sent hk hpc
  | abandon i k e hk hpc hne => exact hc.abandon hk hpc e
  | cancelled i k e hk hpc => exact hc.endCall hk (by rw [hpc]; rfl) rfl nofun nofun
  | drainRaised i k e hk hpc =>
      exact endCall (c := c.release) hc hk (by rw [hpc]; rfl) rfl nofun nofun
  | answered i k f pc hk hpc hf hout =>
      refine hc.endCall hk (by rw [hpc]; rfl) ?_ ?_ ?_
      · cases f <;> cases hout <;> rfl
      · rintro status message rfl
        cases f <;> cases hout
        exact hf
      · rintro rfl
        cases f <;> cases hout
  | gaveUp i k e hk hpc => exact hc.endCall hk (by rw [hpc]; rfl) rfl nofun nofun
  | resolve requestId status message => exact hc.resolve requestId status message
  | close =>
      rw [HDSConnection.close]
      split
      · exact hc
      · exact RequestTable.close hc

end Requests

/-! ## What callers see -/

/-- Requests and responses belong together. -/
structure Correlated (c : HDSConnection) : Prop where
  /-- A response completes no call but one that has its id. -/
  completes : ∀ r ∈ c.received, ∀ i, r.completed = some i →
    ∃ k, c.calls[i]? = some k ∧ k.requestId = some r.requestId
  /-- No call is completed twice. -/
  once : (c.received.filterMap Response.completed).Nodup
  /-- What a response would complete is a call that has not ended. -/
  pending : ∀ requestId i, c.pendingCall requestId = some i →
    ∃ k, c.calls[i]? = some k ∧ k.requestId = some requestId ∧ k.pc.ended = false
  /-- A call returns only with the response that completed it. -/
  returns : ∀ (i : Nat) (k : Call) status message, c.calls[i]? = some k →
    k.pc = .returned (some (status, message)) →
    ∃ r ∈ c.received, r.completed = some i ∧ r.status = status ∧ r.message = message
  /-- No two calls that have not ended have one id. -/
  distinct : ∀ (i j : Nat) (k k' : Call) (requestId : Int), c.calls[i]? = some k →
    c.calls[j]? = some k' → k.requestId = some requestId → k'.requestId = some requestId →
    k.pc.ended = false → k'.pc.ended = false → i = j
  /-- The entries of `_responses` are those of calls that have not ended. -/
  entries : ∀ requestId i, c.responses.get requestId = some i →
    ∃ k, c.calls[i]? = some k ∧ k.requestId = some requestId ∧ k.pc.ended = false
  /-- `close` fails every future that is not done. -/
  closing : c.closed = false → ∀ (i : Nat) (k : Call), c.calls[i]? = some k →
    k.future = some .pending →
      c.close.calls[i]? = some { k with future := some (.failed closedError) }
  /-- What `wait_for` hands out on a closed connection is the exception of `close`, or the
  response that had come. -/
  closed : c.closed = true → ∀ (i : Nat) (k : Call) requestId, c.calls[i]? = some k →
    k.requestId = some requestId → k.pc = .awaiting → k.future = some (.failed closedError) ∨
      ∃ r ∈ c.received, r.completed = some i ∧ k.future = some (.result r.status r.message)
  /-- A call whose future `close` has failed never returns. -/
  failed : ∀ (i : Nat) (k : Call) e, c.calls[i]? = some k → k.future = some (.failed e) →
    e = closedError ∧ ∀ r, k.pc ≠ .returned r

theorem Requests.correlated (h : c.Requests) : c.Correlated where
  completes r hr i hi := by
    obtain ⟨k, hk, hid, -⟩ := h.completed r hr i hi
    exact ⟨k, hk, hid⟩
  once := h.once
  pending requestId i hi := h.outstanding requestId i (pendingCall_eq_some.mp hi).1
  returns i k status message hk hpc :=
    (h.matched i k hk).answered status message ((h.matched i k hk).returned status message hpc)
  distinct := h.distinct
  entries := h.outstanding
  closing hopen i k hk hpending := by
    rw [HDSConnection.close, hopen, if_neg Bool.false_ne_true]
    exact h.getElem?_close.mpr ⟨k, hk, (Call.settle_of_pending _ hpending).symm⟩
  closed hclosed i k requestId hk hid hpc := by
    have hk := h.matched i k hk
    have hsome := hk.future
    rw [hid] at hsome
    obtain ⟨f, hf⟩ := Option.isSome_iff_exists.mp hsome
    cases f with
    | pending => exact (hk.closed hclosed (.inr hpc) hf).elim
    | result status message =>
        obtain ⟨r, hr, hcompleted, rfl, rfl⟩ := hk.answered status message hf
        exact .inr ⟨r, hr, hcompleted, hf⟩
    | failed e => exact .inl (hk.failed e hf ▸ hf)
    | cancelled =>
        rcases hk.cancelled hf with hended | ⟨e, he⟩
        · rw [hpc] at hended
          cases hended
        · rw [hpc] at he
          cases he
  failed i k e hk hfailed := by
    refine ⟨(h.matched i k hk).failed e hfailed, fun r hpc ↦ ?_⟩
    cases r with
    | none =>
        have hnone := (h.matched i k hk).plain hpc
        rw [hfailed] at hnone
        cases hnone
    | some r =>
        have hresult := (h.matched i k hk).returned r.1 r.2 hpc
        rw [hfailed] at hresult
        cases hresult

/-- The request of the step draws an id that no call which has not ended has. -/
def DrawsFresh (c : HDSConnection) (a : Label) : Prop :=
  ∀ protocol topic message requestId,
    a = .sendRequest protocol topic message true requestId → c.Fresh requestId

/-- **In a run in which every request draws a fresh id, the invariant holds.** -/
theorem requests_of_fresh (h : (connections aead reprOf).ReachableVia DrawsFresh c) :
    c.Requests := by
  refine h.invariant (I := Requests) ?_ fun c c' a hc hfresh hstep ↦ ?_
  · rintro c ⟨session, outKey, inKey, firstPayload, buffer, eof, rfl⟩
    exact .new session outKey inKey firstPayload buffer eof
  · exact step_invariant_of_draw (fun _ _ ↦ Requests.callStep) hfresh hstep hc

/-- A request that does not draw a fresh id makes two calls with one id. -/
theorem not_correlated_of_draw {a : Label} (h : c.step aead reprOf a = some c')
    (hfresh : ¬c.DrawsFresh a) : ¬c'.Correlated := by
  intro hc
  refine hfresh fun protocol topic message requestId ha k hk hid ↦ ?_
  subst ha
  rw [step, if_neg Bool.false_ne_true.symm] at h
  split at h
  · cases h
    obtain ⟨i, hi⟩ := List.mem_iff_getElem?.mp hk
    by_contra hpc
    have heq := hc.distinct i c.calls.length k _ requestId (getElem?_concat_of_eq_some hi)
      (getElem?_concat_length _) hid rfl (Bool.eq_false_iff.mpr hpc) rfl
    exact Nat.lt_irrefl _ (heq ▸ lt_length_of_getElem? hi)
  · cases h

/-- **Requests and responses belong together in every state of a run exactly when every request
of the run draws an id that no call which has not ended has.** -/
theorem correlated_iff_fresh (aead : Aead) (reprOf : Obj → String)
    (hist : List (HDSConnection × Label)) (c : HDSConnection)
    (h : (connections aead reprOf).Run hist c) :
    ((∀ p ∈ hist, p.1.Correlated) ∧ c.Correlated) ↔ ∀ p ∈ hist, p.1.DrawsFresh p.2 := by
  constructor
  · rintro ⟨hhist, hc⟩
    induction h with
    | init => exact fun _ hp ↦ by cases hp
    | @step hist c c' a _ hstep ih =>
        obtain ⟨hhist, hlast⟩ := List.forall_mem_append.mp hhist
        have hc₀ := List.forall_mem_singleton.mp hlast
        refine List.forall_mem_append.mpr ⟨ih hhist hc₀, List.forall_mem_singleton.mpr ?_⟩
        by_contra hfresh
        exact not_correlated_of_draw hstep hfresh hc
  · intro hfresh
    have hcorrelated : ∀ {hist c}, (connections aead reprOf).Run hist c →
        (∀ p ∈ hist, p.1.DrawsFresh p.2) → c.Correlated := fun hrun hfresh ↦
      (requests_of_fresh (hrun.reachableVia hfresh)).correlated
    refine ⟨?_, hcorrelated h hfresh⟩
    induction h with
    | init => exact fun _ hp ↦ by cases hp
    | @step hist c c' a hrun hstep ih =>
        obtain ⟨hhist, -⟩ := List.forall_mem_append.mp hfresh
        exact List.forall_mem_append.mpr
          ⟨ih hhist, List.forall_mem_singleton.mpr (hcorrelated hrun hhist)⟩

/-- A request under the id 7. -/
def openRequest : Label :=
  .sendRequest (.ofString "dataSend") (.ofString "open") none true 7

/-- The frame of a response under the id 7. -/
def openResponse : Bytes :=
  let response : Outgoing := ⟨.response 7 0, .ofString "dataSend", .ofString "open", none⟩
  hdsFraming.frame plain [] [] (response.payload.toOption.getD [])

/-- The greeting is answered, a request is sent, and its response comes. -/
def responseComes : List Label :=
  [.resume, .acquire 0, .drained 0, .resume, openRequest, .acquire 1, .drained 1,
    .receive openResponse, .resume, .resume]

/-- The call is in `wait_for` on a future that is not done. -/
def inWaitFor (k : Call) : Bool :=
  match k.pc, k.future with
  | .awaiting, some .pending => true
  | _, _ => false

theorem inWaitFor_iff : inWaitFor k = true ↔ k.pc = .awaiting ∧ k.future = some .pending := by
  rw [inWaitFor]
  split
  · next hpc hfuture => exact iff_of_true rfl ⟨hpc, hfuture⟩
  · next hother => exact iff_of_false Bool.false_ne_true fun h ↦ hother h.1 h.2

/-- A second request draws the id of the first one, which is answered and has not gone on.  The
first one takes the entry of the second with it, and `close` passes the second by: it waits on a
closed connection. -/
theorem not_correlated_of_same_draw : ∃ c, (connections plain fun _ ↦ "").Reachable c ∧
    c.closed = true ∧ (∃ k, c.calls[2]? = some k ∧ k.requestId = some 7 ∧ k.pc = .awaiting ∧
      k.future = some .pending) ∧ ¬c.Correlated := by
  have hrun : ((connections plain fun _ ↦ "").exec greeted (responseComes ++
      [openRequest, .acquire 2, .drained 2, .answered 1, .close])).map (fun c ↦
        (c.closed, c.calls[2]?.map fun k ↦ (k.requestId, inWaitFor k))) =
      some (true, some (some 7, true)) := by
    decide +kernel
  obtain ⟨c, hc, hstate⟩ := Option.map_eq_some_iff.mp hrun
  obtain ⟨hclosed, hcall⟩ := Prod.mk.inj hstate
  obtain ⟨k, hk, hcall⟩ := Option.map_eq_some_iff.mp hcall
  obtain ⟨hid, hwaits⟩ := Prod.mk.inj hcall
  obtain ⟨hpc, hfuture⟩ := inWaitFor_iff.mp hwaits
  refine ⟨c, .exec (.init ⟨_, _, _, _, _, _, rfl⟩) hc, hclosed, ⟨k, hk, hid, hpc, hfuture⟩, ?_⟩
  intro h
  rcases h.closed hclosed 2 k 7 hk hid hpc with hfailed | ⟨r, -, -, hresult⟩
  · rw [hfuture] at hfailed
    cases hfailed
  · rw [hfuture] at hresult
    cases hresult

/-- A request whose response comes and that goes on. -/
theorem correlated_iff_fresh_answered : ∃ c, (connections plain fun _ ↦ "").exec greeted
      (responseComes ++ [.answered 1, openRequest]) = some c ∧
    (((∀ p ∈ (connections plain fun _ ↦ "").trace greeted
        (responseComes ++ [.answered 1, openRequest]), p.1.Correlated) ∧ c.Correlated) ↔
      ∀ p ∈ (connections plain fun _ ↦ "").trace greeted
        (responseComes ++ [.answered 1, openRequest]), p.1.DrawsFresh p.2) := by
  have hrun : ((connections plain fun _ ↦ "").exec greeted
      (responseComes ++ [.answered 1, openRequest])).isSome := by decide +kernel
  obtain ⟨c, hc⟩ := Option.isSome_iff_exists.mp hrun
  have hgreeted : (connections plain fun _ ↦ "").Run [] greeted := .init ⟨_, _, _, _, _, _, rfl⟩
  exact ⟨c, hc, correlated_iff_fresh plain _ _ c (hgreeted.exec hc)⟩

end AtvRemote.Hds.HDSConnection
