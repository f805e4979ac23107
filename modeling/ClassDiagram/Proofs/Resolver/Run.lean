import ClassDiagram.Proofs.Resolver.Identifier
import Mathlib.Data.List.Dedup
import Mathlib.Data.List.Induction
import Mathlib.Data.List.Nodup
/-!
# Runs of a resolver

Requests that one resolver answers one after the other, with a cache that was empty at first and in
which nothing expires. The drawing service may do anything; what is asked of it is written down.
Main statement: a fragment for which there was a URL is given that URL again and the service is left
alone, any other fragment is one call of the service, and the cache has exactly the fragments for
which there was a URL.
-/

namespace ClassDiagram

/-! ## Caches in which all is fresh -/

namespace UrlCache

variable {c : UrlCache} {e : CachedUrl} {now : Nat} {fragment : String}

/-- Every entry is fresh at the time `now`. -/
def AllFresh (c : UrlCache) (now : Nat) : Prop := ∀ e ∈ c.entries, c.isFresh now e = true

theorem find?_eq_some_iff : c.find? fragment = some e ↔ e ∈ c.entries ∧ e.fragment = fragment := by
  constructor
  · intro hfind
    exact ⟨List.mem_of_find?_eq_some hfind, by simpa using List.find?_some hfind⟩
  · rintro ⟨he, rfl⟩
    cases hfind : c.find? e.fragment with
    | none => simpa using List.find?_eq_none.1 hfind e he
    | some e' =>
      have he' := List.mem_of_find?_eq_some hfind
      have hsame : e'.fragment = e.fragment := by simpa using List.find?_some hfind
      rw [List.inj_on_of_nodup_map c.nodup he' he hsame]

theorem find?_eq_none_iff :
    c.find? fragment = none ↔ ∀ e ∈ c.entries, e.fragment ≠ fragment := by
  simp [find?, List.find?_eq_none]

theorem filter_eq_self {p : CachedUrl → Bool} (h : ∀ e ∈ c.entries, p e = true) :
    c.filter p = c := by
  obtain ⟨lifetime, entries, nodup⟩ := c
  simp only [filter, mk.injEq, true_and]
  exact List.filter_eq_self.2 h

/-- Where all is fresh a look tells what is kept and leaves the cache alone. -/
theorem AllFresh.get (hc : c.AllFresh now) :
    c.get now fragment = ((c.find? fragment).map CachedUrl.url, c) := by
  unfold UrlCache.get
  cases hfind : c.find? fragment with
  | none => rfl
  | some e => simp only [hc e (find?_eq_some_iff.1 hfind).1, if_true, Option.map_some]

/-- Where all is fresh and nothing is kept for the fragment, storing only adds an entry. -/
theorem AllFresh.entries_insert (hc : c.AllFresh now)
    (hnew : ∀ e ∈ c.entries, e.fragment ≠ fragment) (url : String) :
    (c.insert now fragment url).entries = ⟨fragment, now, url⟩ :: c.entries := by
  have hsweep : c.sweep now = c := filter_eq_self hc
  have herase : c.erase fragment = c := filter_eq_self fun e he => by simpa using hnew e he
  have hput : ∀ e : CachedUrl, (c.put e).entries = e :: (c.erase e.fragment).entries :=
    fun e => rfl
  rw [insert, hsweep, hput, herase]

end UrlCache

/-! ## One request -/

namespace Resolver

variable {σ : Type} (service : DrawingService σ) {r : Resolver UrlCache} {now : Nat} (style : Style)
  {fragment : String} (world : σ)

/-- A URL that is kept is the answer, and nothing else happens. -/
theorem resolve_of_kept (hfresh : r.cache.AllFresh now) {e : CachedUrl}
    (he : e ∈ r.cache.entries) (hf : e.fragment = fragment) :
    (r.resolve service now style fragment world).1.result = .ok e.url ∧
      (r.resolve service now style fragment world).2 = (r, world) := by
  have hget : FragmentCache.get r.cache now fragment = (some e.url, r.cache) := by
    refine hfresh.get.trans ?_
    rw [UrlCache.find?_eq_some_iff.2 ⟨he, hf⟩, Option.map_some]
  simp [resolve, hget]

/-- What is to be answered when the service replies: its own failure, or the URL with the identifier
that its answer names, or that the answer is malformed. -/
inductive Answers (imageHost : String) : Except Failure String → Except Failure String → Prop where
  | failed {e : Failure} : Answers imageHost (.error e) (.error e)
  | named {answer identifier : String} (h : NamesIdentifier answer identifier) :
    Answers imageHost (.ok answer) (.ok (imageHost ++ identifier))
  | malformed {answer : String} (h : ∀ identifier, ¬ NamesIdentifier answer identifier) :
    Answers imageHost (.ok answer) (.error (.malformedResponse answer))

theorem answers_ask (imageHost : String) (answer : Traced Failure String) (fragment : String) :
    Answers imageHost answer.result (ask imageHost answer style fragment).result := by
  simp only [ask, Traced.result_bind, Traced.result_report, Except.ok_bind]
  cases answer.result with
  | error e => exact .failed
  | ok body =>
    by_cases hnames : ∃ identifier, NamesIdentifier body identifier
    · obtain ⟨identifier, hnames⟩ := hnames
      rw [Except.ok_bind, urlFromAnswer_of_names hnames]
      exact .named hnames
    · have hnames := not_exists.1 hnames
      rw [Except.ok_bind, urlFromAnswer_of_not_names hnames]
      exact .malformed hnames

/-- Without a URL that is kept the service is asked, and a URL that comes of it is stored. -/
theorem resolve_of_not_kept (hfresh : r.cache.AllFresh now)
    (hf : ∀ e ∈ r.cache.entries, e.fragment ≠ fragment) :
    ∃ answer after, (r.resolve service now style fragment world).1.result = answer ∧
      (r.resolve service now style fragment world).2 = (after, (service style fragment world).2) ∧
      Answers r.imageHost (service style fragment world).1.result answer ∧
      match answer with
      | .error _ => after = r
      | .ok url => after = { r with cache := r.cache.insert now fragment url } := by
  have hget : FragmentCache.get r.cache now fragment = (none, r.cache) := by
    refine hfresh.get.trans ?_
    rw [UrlCache.find?_eq_none_iff.2 hf, Option.map_none]
  have hanswers := answers_ask style r.imageHost (service style fragment world).1 fragment
  simp only [resolve, hget]
  cases hasked : (ask r.imageHost (service style fragment world).1 style fragment).result with
  | error e =>
    rw [hasked] at hanswers
    exact ⟨.error e, r, by simp [hasked], rfl, hanswers, rfl⟩
  | ok url =>
    rw [hasked] at hanswers
    exact ⟨.ok url, _, by simp [hasked], rfl, hanswers, rfl⟩

end Resolver

/-! ## Runs -/

/-- A request to a resolver, with the time at which it is made. -/
structure Request where
  now : Nat
  style : Style
  fragment : String
deriving DecidableEq

variable {σ : Type}

/-- The service, with the calls that it gets written down. -/
def recorded (service : DrawingService σ) : DrawingService (List (Style × String) × σ) :=
  fun style fragment (calls, world) =>
    ((service style fragment world).1, calls ++ [(style, fragment)],
      (service style fragment world).2)

/-- Where a run has come to. -/
structure Run (σ : Type) where
  resolver : Resolver UrlCache
  /-- The state of the service. -/
  world : σ
  /-- The calls that the service got. -/
  calls : List (Style × String) := []
  /-- The requests, each with what was answered. -/
  history : List (Request × Except Failure String) := []

namespace Run

/-- The run with one more request. -/
def next (service : DrawingService σ) (run : Run σ) (q : Request) : Run σ :=
  let (answer, resolver, calls, world) := run.resolver.resolve (recorded service) q.now q.style
    q.fragment (run.calls, run.world)
  { resolver, world, calls, history := run.history ++ [(q, answer.result)] }

/-- The run of a resolver with an empty cache over a list of requests. -/
def ofRequests (service : DrawingService σ) (imageHost : String) (lifetime : Nat) (world : σ)
    (requests : List Request) : Run σ :=
  requests.foldl (next service) { resolver := ⟨{ lifetime }, imageHost⟩, world }

/-- There was a request for the fragment, and the URL was the answer. -/
def Resolved (run : Run σ) (fragment url : String) : Prop :=
  ∃ q, (q, .ok url) ∈ run.history ∧ q.fragment = fragment

/-- The fragments for which there was a URL, one for each time there was one. -/
def resolved (run : Run σ) : List String :=
  run.history.filterMap fun (q, answer) => answer.toOption.map fun _ => q.fragment

/-- What is stored at the time of one request is fresh at the time of any later one. -/
def NothingExpires (lifetime : Nat) (requests : List Request) : Prop :=
  requests.Pairwise fun earlier later => later.now - earlier.now < lifetime

/-- The cache has what the history says, and the resolver is still that of the start. -/
structure Accounts (imageHost : String) (lifetime : Nat) (requests : List Request)
    (run : Run σ) : Prop where
  requests : run.history.map Prod.fst = requests
  imageHost : run.resolver.imageHost = imageHost
  lifetime : run.resolver.cache.lifetime = lifetime
  stored : ∀ e ∈ run.resolver.cache.entries,
    ∃ q, (q, .ok e.url) ∈ run.history ∧ q.fragment = e.fragment ∧ q.now = e.stored
  kept : ∀ q url, (q, .ok url) ∈ run.history →
    ∃ e ∈ run.resolver.cache.entries, e.fragment = q.fragment ∧ e.url = url

variable (service : DrawingService σ) {imageHost : String} {lifetime : Nat} {world : σ}
  {requests : List Request} {q : Request} {run : Run σ}

theorem ofRequests_concat : ofRequests service imageHost lifetime world (requests ++ [q]) =
    (ofRequests service imageHost lifetime world requests).next service q := by
  rw [ofRequests, List.foldl_append]
  rfl

theorem mem_resolved {fragment : String} :
    fragment ∈ run.resolved ↔ ∃ url, run.Resolved fragment url := by
  constructor
  · intro hmem
    obtain ⟨⟨q, answer⟩, hq, hanswer⟩ := List.mem_filterMap.1 hmem
    obtain ⟨url, rfl, hf⟩ := Except.map_toOption_eq_some.1 hanswer
    exact ⟨url, q, hq, hf⟩
  · rintro ⟨url, q, hq, rfl⟩
    exact List.mem_filterMap.2 ⟨_, hq, rfl⟩

namespace Accounts

variable (h : run.Accounts imageHost lifetime requests)

include h

theorem resolved_iff {fragment url : String} : run.Resolved fragment url ↔
    ∃ e ∈ run.resolver.cache.entries, e.fragment = fragment ∧ e.url = url := by
  constructor
  · rintro ⟨q, hq, rfl⟩
    exact h.kept q url hq
  · rintro ⟨e, he, rfl, rfl⟩
    obtain ⟨q, hq, hf, -⟩ := h.stored e he
    exact ⟨q, hq, hf⟩

theorem resolved_unique {fragment url url' : String} (hurl : run.Resolved fragment url)
    (hurl' : run.Resolved fragment url') : url = url' := by
  obtain ⟨e, he, hf, rfl⟩ := h.resolved_iff.1 hurl
  obtain ⟨e', he', hf', rfl⟩ := h.resolved_iff.1 hurl'
  rw [List.inj_on_of_nodup_map run.resolver.cache.nodup he he' (hf.trans hf'.symm)]

/-- The cache has exactly one entry for each fragment for which there was a URL. -/
theorem perm_resolved :
    (run.resolver.cache.entries.map CachedUrl.fragment).Perm run.resolved.dedup := by
  refine (List.perm_ext_iff_of_nodup run.resolver.cache.nodup (List.nodup_dedup _)).2 fun f => ?_
  rw [List.mem_dedup, mem_resolved, List.mem_map]
  constructor
  · rintro ⟨e, he, rfl⟩
    exact ⟨e.url, h.resolved_iff.2 ⟨e, he, rfl, rfl⟩⟩
  · rintro ⟨url, hurl⟩
    obtain ⟨e, he, hf, -⟩ := h.resolved_iff.1 hurl
    exact ⟨e, he, hf⟩

theorem allFresh (hexpires : NothingExpires lifetime (requests ++ [q])) :
    run.resolver.cache.AllFresh q.now := by
  intro e he
  obtain ⟨p, hp, -, hnow⟩ := h.stored e he
  have hmem : p ∈ requests := h.requests ▸ List.mem_map_of_mem hp
  have hlt := (List.pairwise_append.1 hexpires).2.2 p hmem q List.mem_cons_self
  rw [hnow, ← h.lifetime] at hlt
  exact decide_eq_true hlt

/-! ### One request more -/

/-- A fragment for which there was a URL is given that URL, and the rest of the run is as before. -/
theorem next_of_resolved (hexpires : NothingExpires lifetime (requests ++ [q])) {url : String}
    (hurl : run.Resolved q.fragment url) :
    run.next service q = { run with history := run.history ++ [(q, .ok url)] } := by
  obtain ⟨e, he, hf, rfl⟩ := h.resolved_iff.1 hurl
  obtain ⟨hanswer, hafter⟩ := Resolver.resolve_of_kept (recorded service) q.style
    (run.calls, run.world) (h.allFresh hexpires) he hf
  simp only [next, hanswer, hafter]

/-- Any other fragment is a call of the service. -/
theorem next_of_not_resolved (hexpires : NothingExpires lifetime (requests ++ [q]))
    (hurl : ∀ url, ¬ run.Resolved q.fragment url) :
    ∃ answer resolver, run.next service q =
        { resolver, world := (service q.style q.fragment run.world).2,
          calls := run.calls ++ [(q.style, q.fragment)],
          history := run.history ++ [(q, answer)] } ∧
      Resolver.Answers imageHost (service q.style q.fragment run.world).1.result answer ∧
      match answer with
      | .error _ => resolver = run.resolver
      | .ok url => resolver =
          { run.resolver with cache := run.resolver.cache.insert q.now q.fragment url } := by
  have hnew : ∀ e ∈ run.resolver.cache.entries, e.fragment ≠ q.fragment :=
    fun e he hf => hurl e.url (h.resolved_iff.2 ⟨e, he, hf, rfl⟩)
  obtain ⟨answer, resolver, hanswer, hafter, hanswers, hresolver⟩ :=
    Resolver.resolve_of_not_kept (recorded service) q.style (run.calls, run.world)
      (h.allFresh hexpires) hnew
  refine ⟨answer, resolver, ?_, h.imageHost ▸ hanswers, hresolver⟩
  simp only [next, hanswer, hafter, recorded]

/-- With the cache left as it is, the account holds if the answer is no new URL. -/
theorem concat_of_known {after : Run σ} {answer : Except Failure String}
    (hresolver : after.resolver = run.resolver)
    (hhistory : after.history = run.history ++ [(q, answer)])
    (hknown : ∀ url, answer = .ok url → run.Resolved q.fragment url) :
    after.Accounts imageHost lifetime (requests ++ [q]) where
  requests := by rw [hhistory, List.map_append, h.requests]; rfl
  imageHost := hresolver ▸ h.imageHost
  lifetime := hresolver ▸ h.lifetime
  stored := by
    rw [hresolver, hhistory]
    intro e he
    obtain ⟨p, hp, hf, hnow⟩ := h.stored e he
    exact ⟨p, List.mem_append_left _ hp, hf, hnow⟩
  kept := by
    rw [hresolver, hhistory]
    intro p url hp
    rcases List.mem_append.1 hp with hp | hp
    · exact h.kept p url hp
    · obtain ⟨rfl, rfl⟩ := Prod.mk.inj (List.mem_singleton.1 hp)
      exact h.resolved_iff.1 (hknown url rfl)

/-- With a new entry in the cache, the account holds if the entry is what was answered. -/
theorem concat_of_stored {after : Run σ} {url : String}
    (hresolver : after.resolver.imageHost = run.resolver.imageHost ∧
      after.resolver.cache.lifetime = run.resolver.cache.lifetime ∧
      after.resolver.cache.entries = ⟨q.fragment, q.now, url⟩ :: run.resolver.cache.entries)
    (hhistory : after.history = run.history ++ [(q, .ok url)]) :
    after.Accounts imageHost lifetime (requests ++ [q]) where
  requests := by rw [hhistory, List.map_append, h.requests]; rfl
  imageHost := hresolver.1 ▸ h.imageHost
  lifetime := hresolver.2.1 ▸ h.lifetime
  stored := by
    rw [hresolver.2.2, hhistory]
    intro e he
    rcases List.mem_cons.1 he with rfl | he
    · exact ⟨q, by simp, rfl, rfl⟩
    · obtain ⟨p, hp, hf, hnow⟩ := h.stored e he
      exact ⟨p, List.mem_append_left _ hp, hf, hnow⟩
  kept := by
    rw [hresolver.2.2, hhistory]
    intro p url hp
    rcases List.mem_append.1 hp with hp | hp
    · obtain ⟨e, he, hf, heq⟩ := h.kept p url hp
      exact ⟨e, List.mem_cons_of_mem _ he, hf, heq⟩
    · obtain ⟨rfl, hurl⟩ := Prod.mk.inj (List.mem_singleton.1 hp)
      exact ⟨_, List.mem_cons_self, rfl, (Except.ok.inj hurl).symm⟩

theorem next (hexpires : NothingExpires lifetime (requests ++ [q])) :
    (run.next service q).Accounts imageHost lifetime (requests ++ [q]) := by
  by_cases hurl : ∃ url, run.Resolved q.fragment url
  · obtain ⟨url, hurl⟩ := hurl
    rw [h.next_of_resolved service hexpires hurl]
    exact h.concat_of_known rfl rfl fun url' heq => Except.ok.inj heq ▸ hurl
  · have hurl := not_exists.1 hurl
    obtain ⟨answer, resolver, hnext, -, hresolver⟩ :=
      h.next_of_not_resolved service hexpires hurl
    rw [hnext]
    cases answer with
    | error e => exact h.concat_of_known hresolver rfl fun url heq => by cases heq
    | ok url =>
      subst hresolver
      refine h.concat_of_stored ⟨rfl, rfl, ?_⟩ rfl
      refine (h.allFresh hexpires).entries_insert (fun e he hf => ?_) url
      exact hurl e.url (h.resolved_iff.2 ⟨e, he, hf, rfl⟩)

end Accounts

theorem accounts_ofRequests (hexpires : NothingExpires lifetime requests) :
    (ofRequests service imageHost lifetime world requests).Accounts imageHost lifetime
      requests := by
  induction requests using List.reverseRecOn with
  | nil => exact ⟨rfl, rfl, rfl, by simp [ofRequests], by simp [ofRequests]⟩
  | append_singleton requests q ih =>
    rw [ofRequests_concat]
    exact (ih (List.pairwise_append.1 hexpires).1).next service hexpires

/-- What a request comes to, in a run with a service that may do anything and with a cache in which
nothing expires. A fragment for which there was a URL before is given the same URL in every style,
without a call of the service, and nothing changes. For any other fragment there is exactly one
call, with the style and the fragment of the request; the answer is what the reply leads to, and
after a failure the cache is as it was. Either way the cache then has exactly one entry for each
fragment for which there was a URL, and its URL was answered. -/
theorem each_request_is_accounted_for (service : DrawingService σ) (imageHost : String)
    (lifetime : Nat) (world : σ) {earlier : List Request} {q : Request}
    (hexpires : NothingExpires lifetime (earlier ++ [q])) :
    let before := ofRequests service imageHost lifetime world earlier
    let after := ofRequests service imageHost lifetime world (earlier ++ [q])
    ∃ answer, after.history = before.history ++ [(q, answer)] ∧
      (∀ url, before.Resolved q.fragment url →
        answer = .ok url ∧ after.calls = before.calls ∧ after.world = before.world ∧
          after.resolver = before.resolver) ∧
      ((∀ url, ¬ before.Resolved q.fragment url) →
        after.calls = before.calls ++ [(q.style, q.fragment)] ∧
          after.world = (service q.style q.fragment before.world).2 ∧
          Resolver.Answers imageHost (service q.style q.fragment before.world).1.result answer ∧
          ∀ e, answer = .error e → after.resolver = before.resolver) ∧
      (after.resolver.cache.entries.map CachedUrl.fragment).Perm after.resolved.dedup ∧
      ∀ e ∈ after.resolver.cache.entries, after.Resolved e.fragment e.url := by
  intro before after
  have hbefore : before.Accounts imageHost lifetime earlier :=
    accounts_ofRequests service (List.pairwise_append.1 hexpires).1
  have hafter : after.Accounts imageHost lifetime (earlier ++ [q]) :=
    accounts_ofRequests service hexpires
  have hnext : after = before.next service q := ofRequests_concat service
  have hcache : (after.resolver.cache.entries.map CachedUrl.fragment).Perm after.resolved.dedup ∧
      ∀ e ∈ after.resolver.cache.entries, after.Resolved e.fragment e.url :=
    ⟨hafter.perm_resolved, fun e he => hafter.resolved_iff.2 ⟨e, he, rfl, rfl⟩⟩
  by_cases hurl : ∃ url, before.Resolved q.fragment url
  · obtain ⟨url, hurl⟩ := hurl
    rw [hbefore.next_of_resolved service hexpires hurl] at hnext
    refine ⟨.ok url, by rw [hnext], fun url' hurl' => ?_, fun hnone => absurd hurl (hnone url),
      hcache⟩
    rw [hbefore.resolved_unique hurl' hurl, hnext]
    exact ⟨rfl, rfl, rfl, rfl⟩
  · have hurl := not_exists.1 hurl
    obtain ⟨answer, resolver, hasked, hanswers, hresolver⟩ :=
      hbefore.next_of_not_resolved service hexpires hurl
    rw [hasked] at hnext
    refine ⟨answer, by rw [hnext], fun url hurl' => absurd hurl' (hurl url), fun _ => ?_, hcache⟩
    refine ⟨by rw [hnext], by rw [hnext], hanswers, ?_⟩
    rintro e rfl
    rw [hnext]
    exact hresolver

/-- A service that takes its replies from a list, and then is out of reach. -/
def scripted : DrawingService (List (Except Failure String)) := fun _ _ replies =>
  (.ofExcept (replies.head?.getD (.error (.http (.unanswered "https://yuml.me/")))), replies.tail)

/-- Replies of which the first two lead to no URL. -/
def replies : List (Except Failure String) :=
  [.error (.http (.refused 503 "busy" "https://yuml.me/")), .ok " no dot\n", .ok " abc.png\n",
    .ok "x.y.svg"]

/-- Requests for one fragment until there is a URL for it, then again in another style, and a
request for another fragment. -/
def visits : List Request :=
  [⟨0, {}, "[A]"⟩, ⟨3, {}, "[A]"⟩, ⟨5, {}, "[A]"⟩, ⟨6, { palette := .scruffy }, "[A]"⟩,
    ⟨8, {}, "[B]"⟩]

/-- The third request still is a call of the service; no later one for the fragment is. -/
theorem visits_are_accounted_for :
    let start := ofRequests scripted "https://yuml.me/" 60 replies (visits.take 2)
    let third : Request := ⟨5, {}, "[A]"⟩
    let before := ofRequests scripted "https://yuml.me/" 60 replies visits
    let last : Request := ⟨9, { scale := .huge }, "[A]"⟩
    let after := ofRequests scripted "https://yuml.me/" 60 replies (visits ++ [last])
    NothingExpires 60 (visits.take 2 ++ [third]) ∧ (∀ url, ¬ start.Resolved "[A]" url) ∧
      (ofRequests scripted "https://yuml.me/" 60 replies (visits.take 2 ++ [third])).calls =
        start.calls ++ [(default, "[A]")] ∧
      NothingExpires 60 (visits ++ [last]) ∧ before.Resolved "[A]" "https://yuml.me/abc" ∧
      after.history = before.history ++ [(last, .ok "https://yuml.me/abc")] ∧
      after.calls = before.calls ∧ before.calls.length = 4 ∧
      (after.resolver.cache.entries.map CachedUrl.fragment).Perm after.resolved.dedup := by
  intro start third before last after
  have hsoon : NothingExpires 60 (visits.take 2 ++ [third]) := by
    unfold NothingExpires
    decide
  have hexpires : NothingExpires 60 (visits ++ [last]) := by
    unfold NothingExpires
    decide
  have hstart : ∀ url, ¬ start.Resolved "[A]" url := by
    intro url hurl
    have hmem : "[A]" ∈ start.resolved := mem_resolved.2 ⟨url, hurl⟩
    have hnone : start.resolved = [] := by rfl
    simp [hnone] at hmem
  have hbefore : before.Resolved "[A]" "https://yuml.me/abc" := ⟨third, by decide, rfl⟩
  obtain ⟨_, -, -, hasks, -⟩ :=
    each_request_is_accounted_for scripted "https://yuml.me/" 60 replies hsoon
  obtain ⟨answer, hhistory, hreuses, -, hcache, -⟩ :=
    each_request_is_accounted_for scripted "https://yuml.me/" 60 replies hexpires
  obtain ⟨rfl, hcalls, -⟩ := hreuses _ hbefore
  exact ⟨hsoon, hstart, (hasks hstart).1, hexpires, hbefore, hhistory, hcalls, by rfl, hcache⟩

end Run

end ClassDiagram
