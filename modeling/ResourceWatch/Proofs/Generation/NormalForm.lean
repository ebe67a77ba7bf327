import ResourceWatch.Proofs.Generation.Calls

/-!
# The normal form of a generated file

A file that starts without tag lines of the keys in use is, after any run of calls, its first text followed by one
region for each key, in the order in which the keys came and each as its last call wrote it (`text_runAll`).  One call
takes the normal form of the calls before it to the normal form with it (`inject_normalForm`): a new key brings its
region to the end, a known key has its region between parts that hold no tag line of it.
-/

namespace ResourceWatch.Generation

open Region (Key inject)
open Text (unlines)

/-- The calls one after the other, up to the first that fails. -/
def runAll (path : String) (calls : List Call) : Action (List Generated) := calls.mapM (Call.run path)

/-- The keys of the calls in the order of their first use. -/
def keysOf (calls : List Call) : List Key := (calls.map Call.key).eraseDups

/-- What the last call for a key leaves in the file. -/
def lastRegion (calls : List Call) (key : Key) : List Char :=
  match (calls.filter fun c => c.key == key).getLast? with
  | some c => c.region
  | none => []

/-- The text, and for each key a blank line and the region of the last call for the key. -/
def normalForm (text : String) (calls : List Call) : String :=
  text ++ String.join ((keysOf calls).map fun key => "\n\n" ++ String.ofList (lastRegion calls key))

/-! ### Keys and regions -/

private theorem nodup_eraseDups : ∀ keys : List Key, keys.eraseDups.Nodup
  | [] => by simp
  | key :: keys => by
    have : (keys.filter fun k => !k == key).length < keys.length + 1 :=
      Nat.lt_succ_of_le (List.length_filter_le _ _)
    rw [List.eraseDups_cons, List.nodup_cons]
    exact ⟨by simp [List.mem_eraseDups], nodup_eraseDups _⟩
termination_by keys => keys.length

theorem mem_keysOf {calls : List Call} {key : Key} : key ∈ keysOf calls ↔ ∃ c ∈ calls, c.key = key := by
  rw [keysOf, List.mem_eraseDups, List.mem_map]

private theorem eraseDups_append_singleton (keys : List Key) (key : Key) :
    (keys ++ [key]).eraseDups = if key ∈ keys then keys.eraseDups else keys.eraseDups ++ [key] := by
  rw [List.eraseDups_append, List.removeAll, List.filter_cons]
  by_cases h : key ∈ keys
  · simp [h]
  · simp [h, List.eraseDups_cons]

theorem keysOf_append_of_mem {calls : List Call} {c : Call} (h : c.key ∈ keysOf calls) :
    keysOf (calls ++ [c]) = keysOf calls := by
  rw [keysOf, List.mem_eraseDups] at h
  rw [keysOf, List.map_append, List.map_singleton, eraseDups_append_singleton, if_pos h, keysOf]

theorem keysOf_append_of_not_mem {calls : List Call} {c : Call} (h : c.key ∉ keysOf calls) :
    keysOf (calls ++ [c]) = keysOf calls ++ [c.key] := by
  rw [keysOf, List.mem_eraseDups] at h
  rw [keysOf, List.map_append, List.map_singleton, eraseDups_append_singleton, if_neg h, keysOf]

theorem keysOf_split {calls : List Call} {key : Key} (h : key ∈ keysOf calls) :
    ∃ before behind, keysOf calls = before ++ key :: behind ∧
      ∀ k, k ∈ before ∨ k ∈ behind → k ∈ keysOf calls ∧ k ≠ key := by
  obtain ⟨before, behind, hkeys⟩ := List.append_of_mem h
  have hnodup : (keysOf calls).Nodup := nodup_eraseDups (calls.map Call.key)
  rw [hkeys, List.nodup_append, List.nodup_cons] at hnodup
  refine ⟨before, behind, hkeys, fun k hk => ⟨?_, ?_⟩⟩
  · simpa [hkeys] using hk.imp_right .inr
  · rintro rfl
    rcases hk with hk | hk
    · exact hnodup.2.2 k hk k (by simp) rfl
    · exact hnodup.2.1.1 hk

theorem lastRegion_append_self (calls : List Call) (c : Call) : lastRegion (calls ++ [c]) c.key = c.region := by
  simp [lastRegion]

theorem lastRegion_append_of_ne (calls : List Call) {c : Call} {key : Key} (h : c.key ≠ key) :
    lastRegion (calls ++ [c]) key = lastRegion calls key := by
  simp [lastRegion, List.filter_append, h]

theorem lastRegion_of_mem {calls : List Call} {key : Key} (h : key ∈ keysOf calls) :
    ∃ c ∈ calls, c.key = key ∧ lastRegion calls key = c.region := by
  obtain ⟨d, hd, hkey⟩ := mem_keysOf.1 h
  cases hlast : (calls.filter fun c => c.key == key).getLast? with
  | none =>
    rw [List.getLast?_eq_none_iff] at hlast
    have : d ∈ calls.filter fun c => c.key == key := List.mem_filter.2 ⟨hd, by simp [hkey]⟩
    rw [hlast] at this
    simp at this
  | some c =>
    have hmem := List.mem_filter.1 (List.mem_of_getLast? hlast)
    exact ⟨c, hmem.1, by simpa using hmem.2, by simp only [lastRegion, hlast]⟩

/-! ### The parts of the normal form -/

/-- The parts of the regions of the keys: a blank line and the region. -/
def regionParts (f : Key → List Char) (keys : List Key) : List (List Char) := keys.flatMap fun key => [[], f key]

theorem unlines_regionParts (f : Key → List Char) (part : List Char) (keys : List Key) :
    unlines (part :: regionParts f keys) = part ++ keys.flatMap fun key => '\n' :: '\n' :: f key := by
  induction keys generalizing part with
  | nil => simp [regionParts, unlines]
  | cons key keys ih =>
    have hparts : regionParts f (key :: keys) = [] :: f key :: regionParts f keys := rfl
    rw [hparts, Text.unlines_cons part (by simp), Text.unlines_cons [] (by simp), ih, List.flatMap_cons]
    rfl

theorem toList_normalForm (text : String) (calls : List Call) :
    (normalForm text calls).toList = unlines (text.toList :: regionParts (lastRegion calls) (keysOf calls)) := by
  rw [unlines_regionParts, normalForm, String.toList_append, String.toList_join, List.flatMap_map]
  simp [String.toList_append]

theorem regionParts_congr {f g : Key → List Char} {keys : List Key} (h : ∀ key ∈ keys, f key = g key) :
    regionParts f keys = regionParts g keys := by
  unfold regionParts
  induction keys with
  | nil => rfl
  | cons key keys ih =>
    rw [List.flatMap_cons, List.flatMap_cons, h key (by simp), ih fun k hk => h k (by simp [hk])]

/-- The regions of other keys hold no tag line of a key. -/
theorem clean_regionParts {calls : List Call} (haccepted : ∀ c ∈ calls, c.naming.Accepted) {d : Call}
    {keys : List Key} (hkeys : ∀ key ∈ keys, key ∈ keysOf calls ∧ key ≠ d.key) :
    d.key.Clean ((regionParts (lastRegion calls) keys).flatMap Text.lines) := by
  induction keys with
  | nil =>
    intro l hl
    simp [regionParts] at hl
  | cons key keys ih =>
    obtain ⟨hmem, hne⟩ := hkeys key (by simp)
    obtain ⟨c, hc, rfl, hregion⟩ := lastRegion_of_mem hmem
    have hclean : d.key.Clean (Text.lines (lastRegion calls c.key)) := by
      rw [hregion]
      exact Call.clean (haccepted c hc) hne.symm
    have hparts : (regionParts (lastRegion calls) (c.key :: keys)).flatMap Text.lines =
        [[]] ++ Text.lines (lastRegion calls c.key) ++ (regionParts (lastRegion calls) keys).flatMap Text.lines := by
      simp [regionParts, Text.lines]
    rw [hparts]
    exact (Key.clean_nil_line.append hclean).append (ih fun k hk => hkeys k (by simp [hk]))

/-! ### One call -/

section

variable {text : String} {calls : List Call} {c : Call}

private theorem inject_new (hcalls : ∀ d ∈ calls, d.naming.Accepted) (hc : c.naming.Accepted)
    (htext : c.key.Clean (Text.lines text.toList)) (hnew : c.key ∉ keysOf calls) :
    inject (normalForm text calls) c.key c.rendered = .ok (normalForm text (calls ++ [c])) := by
  have hclean : c.key.Clean (Text.lines (normalForm text calls).toList) := by
    rw [toList_normalForm, Text.lines_unlines_flatMap (by simp), List.flatMap_cons]
    exact htext.append (clean_regionParts hcalls fun key hkey => ⟨hkey, fun heq => hnew (heq ▸ hkey)⟩)
  have hregions : (keysOf calls).map (fun key => "\n\n" ++ String.ofList (lastRegion (calls ++ [c]) key)) =
      (keysOf calls).map fun key => "\n\n" ++ String.ofList (lastRegion calls key) := by
    apply List.map_congr_left
    intro key hkey
    rw [lastRegion_append_of_ne calls fun heq => hnew (heq ▸ hkey)]
  rw [Call.inject_of_counts hc (Key.counts_of_clean c.lineFeed_not_mem_key hclean), normalForm, normalForm,
    keysOf_append_of_not_mem hnew, List.map_append, hregions, List.map_singleton, lastRegion_append_self]
  refine congrArg Except.ok (String.toList_inj.1 ?_)
  simp [String.toList_append, String.toList_join]

private theorem inject_known (hcalls : ∀ d ∈ calls, d.naming.Accepted) (hc : c.naming.Accepted)
    (htext : c.key.Clean (Text.lines text.toList)) (hknown : c.key ∈ keysOf calls) :
    inject (normalForm text calls) c.key c.rendered = .ok (normalForm text (calls ++ [c])) := by
  -- the region that gives way was written by an earlier call for the key
  obtain ⟨d, hd, hkey, hregion⟩ := lastRegion_of_mem hknown
  obtain ⟨before, behind, hkeys, hother⟩ := keysOf_split hknown
  have hparts : ∀ f : Key → List Char, text.toList :: regionParts f (keysOf calls) =
      (text.toList :: regionParts f before ++ [[]]) ++ [f c.key] ++ regionParts f behind := by
    intro f
    simp [hkeys, regionParts]
  have hold : c.key.IsRegion (Text.lines (lastRegion calls c.key)) := by
    rw [hregion, ← hkey]
    exact Call.isRegion (hcalls d hd)
  have hbefore : c.key.Clean ((text.toList :: regionParts (lastRegion calls) before ++ [[]]).flatMap Text.lines) := by
    rw [List.flatMap_append, List.flatMap_cons]
    refine (htext.append (clean_regionParts hcalls fun key hmem => hother key (.inl hmem))).append ?_
    exact Key.clean_nil_line
  have hbehind : c.key.Clean ((regionParts (lastRegion calls) behind).flatMap Text.lines) :=
    clean_regionParts hcalls fun key hmem => hother key (.inr hmem)
  have hexisting : (normalForm text calls).toList = unlines ((text.toList :: regionParts (lastRegion calls) before ++
      [[]]) ++ [lastRegion calls c.key] ++ regionParts (lastRegion calls) behind) := by
    rw [toList_normalForm, hparts]
  rw [Region.inject_of_isRegion c.lineFeed_not_mem_key hexisting hold hbefore hbehind (Call.counts_region hc)]
  -- the regions of the other keys are as before the call
  have hsame : ∀ {keys : List Key}, (∀ key ∈ keys, key ≠ c.key) →
      regionParts (lastRegion (calls ++ [c])) keys = regionParts (lastRegion calls) keys :=
    fun h => regionParts_congr fun key hmem => lastRegion_append_of_ne calls (h key hmem).symm
  refine congrArg Except.ok (String.toList_inj.1 ?_)
  rw [String.toList_ofList, toList_normalForm, keysOf_append_of_mem hknown, hparts, lastRegion_append_self,
    hsame fun key hmem => (hother key (.inl hmem)).2, hsame fun key hmem => (hother key (.inr hmem)).2]
  rfl

/-- Each call takes the normal form of the calls before it to the normal form with it. -/
theorem inject_normalForm (hcalls : ∀ d ∈ calls, d.naming.Accepted) (hc : c.naming.Accepted)
    (htext : c.key.Clean (Text.lines text.toList)) :
    inject (normalForm text calls) c.key c.rendered = .ok (normalForm text (calls ++ [c])) := by
  by_cases h : c.key ∈ keysOf calls
  · exact inject_known hcalls hc htext h
  · exact inject_new hcalls hc htext h

end

/-! ### Runs -/

section

variable {path text : String} {t u : FileTree}

theorem runAll_nil (path : String) (t : FileTree) : runAll path [] t = .ok [] t := rfl

theorem runAll_cons_ok {c : Call} {g : Generated} (h : c.run path t = .ok g u) (calls : List Call) :
    runAll path (c :: calls) t =
      match runAll path calls u with
      | .ok gs v => .ok (g :: gs) v
      | .error e v => .error e v := by
  simp only [runAll, List.mapM_cons, bind, EStateM.bind, h]
  cases calls.mapM (Call.run path) u with
  | ok gs v => rfl
  | error e v => rfl

theorem runAll_cons_error {c : Call} {e : GenerationFailure} (h : c.run path t = .error e u) (calls : List Call) :
    runAll path (c :: calls) t = .error e u := by
  simp only [runAll, List.mapM_cons, bind, EStateM.bind, h]

/-- A call on a normal form leaves the normal form with it, unless the file cannot be replaced. -/
theorem run_normalForm {calls : List Call} {c : Call} (htext : t.text path = .ok (normalForm text calls))
    (hcalls : ∀ d ∈ calls, d.naming.Accepted) (hc : c.naming.Accepted)
    (hclean : c.key.Clean (Text.lines text.toList)) :
    (∃ g u, c.run path t = .ok g u ∧ u.text path = .ok (normalForm text (calls ++ [c]))) ∨
      ∃ f u, c.run path t = .error (.file f) u := by
  have hinject := inject_normalForm hcalls hc hclean
  rw [Call.run_eq]
  by_cases hsame : normalForm text (calls ++ [c]) = normalForm text calls
  · rw [hsame] at hinject ⊢
    exact .inl ⟨.upToDate, t, refresh_upToDate htext hinject, htext⟩
  · cases hreplace : FileTree.replaceText path (normalForm text (calls ++ [c])) t with
    | ok r u =>
      exact .inl ⟨.replaced, u, refresh_replaced htext hinject hsame hreplace,
        FileTree.text_replaceText htext hreplace⟩
    | error f u => exact .inr ⟨f, u, refresh_of_replaceText_error htext hinject hsame hreplace⟩

private theorem text_runAll_append {done calls : List Call} (htext : t.text path = .ok (normalForm text done))
    (haccepted : ∀ c ∈ done ++ calls, c.naming.Accepted) (hclean : ∀ c ∈ calls, c.key.Clean (Text.lines text.toList))
    (hfile : ∀ f u, runAll path calls t ≠ .error (.file f) u) :
    ∃ outcomes u, runAll path calls t = .ok outcomes u ∧ u.text path = .ok (normalForm text (done ++ calls)) := by
  induction calls generalizing done t with
  | nil => exact ⟨[], t, runAll_nil path t, by rwa [List.append_nil]⟩
  | cons c calls ih =>
    have hdone : ∀ d ∈ done, d.naming.Accepted := fun d hd => haccepted d (by simp [hd])
    rcases run_normalForm htext hdone (haccepted c (by simp)) (hclean c (by simp)) with ⟨g, v, hrun, hv⟩ |
      ⟨f, v, hrun⟩
    · have hrest : ∀ f u, runAll path calls v ≠ .error (.file f) u := by
        intro f u hfailed
        refine hfile f u ?_
        rw [runAll_cons_ok hrun, hfailed]
      obtain ⟨outcomes, u, hu, htext'⟩ := ih hv (by simpa using haccepted) (fun d hd => hclean d (by simp [hd])) hrest
      refine ⟨g :: outcomes, u, ?_, by simpa using htext'⟩
      rw [runAll_cons_ok hrun, hu]
    · exact absurd (runAll_cons_error hrun calls) (hfile f v)

theorem runAll_of_replaceable (ht : t.Replaceable path) (calls : List Call) (f : FileFailure) (u : FileTree) :
    runAll path calls t ≠ .error (.file f) u := by
  induction calls generalizing t with
  | nil =>
    rw [runAll_nil]
    simp
  | cons c calls ih =>
    have hcases := refresh_of_replaceable ht c.key c.rendered
    rw [← Call.run_eq] at hcases
    rcases hcases with ⟨g, v, hrun, hv⟩ | ⟨e, hrun⟩
    · rw [runAll_cons_ok hrun]
      cases hrest : runAll path calls v with
      | ok gs w => simp
      | error e w =>
        intro heq
        simp only [EStateM.Result.error.injEq] at heq
        exact ih hv (by rw [hrest, heq.1, heq.2])
    · rw [runAll_cons_error hrun]
      simp

/-- A run of calls with accepted names on a text without tag lines of their keys leaves the normal form of the
text. -/
theorem text_runAll {calls : List Call} (htext : t.text path = .ok text)
    (haccepted : ∀ c ∈ calls, c.naming.Accepted)
    (hnone : ∀ c ∈ calls, c.key.counts (Text.lines text.toList) = (0, 0))
    (hfile : ∀ f u, runAll path calls t ≠ .error (.file f) u) :
    ∃ outcomes u, runAll path calls t = .ok outcomes u ∧ u.text path = .ok (normalForm text calls) := by
  have hstart : t.text path = .ok (normalForm text []) := by
    rw [htext]
    simp [normalForm, keysOf, String.join]
  have hclean : ∀ c ∈ calls, c.key.Clean (Text.lines text.toList) :=
    fun c hc => Key.clean_of_counts c.lineFeed_not_mem_key (hnone c hc)
  have hrun := text_runAll_append hstart (by simpa using haccepted) hclean hfile
  rwa [List.nil_append] at hrun

end

/-- Names and numbers of which one starts the other do not get in each other's way. -/
theorem text_of_mixed_run :
    ∃ (t u : FileTree) (outcomes : List Generated) (pod group : Resource), pod.name = "Pod" ∧
      group.name = "PodGroup" ∧ t.text "lib.rs" = .ok "mod pods;\n" ∧
      runAll "lib.rs" [.client group {}, .server 12 pod {}, .client pod {}, .server 1 group {},
        .client group { clientType := "Groups" }] t = .ok outcomes u ∧
      u.text "lib.rs" = .ok (normalForm "mod pods;\n" [.client group {}, .server 12 pod {}, .client pod {},
        .server 1 group {}, .client group { clientType := "Groups" }]) := by
  have hname : isResourceName "Pod" = true := by decide
  have hname' : isResourceName "PodGroup" = true := by decide
  have hkey : isKeyParameter "id" = true := by decide
  obtain ⟨pod, hpod⟩ : ∃ r : Resource, r.name = "Pod" := ⟨⟨"Pod", some "id", hname, by simpa using hkey⟩, rfl⟩
  obtain ⟨group, hgroup⟩ : ∃ r : Resource, r.name = "PodGroup" := ⟨⟨"PodGroup", none, hname', by simp⟩, rfl⟩
  have htext : ({ nodes := [(["lib.rs"], .file 0o644 (.text "mod pods;\n"))] } : FileTree).text "lib.rs" =
      .ok "mod pods;\n" := by decide +kernel
  have hplace : ({ nodes := [(["lib.rs"], .file 0o644 (.text "mod pods;\n"))] } : FileTree).temporaryPlace "lib.rs" =
      .ok [".tttttt"] := by decide +kernel
  have hfile : FileTree.Replaceable _ "lib.rs" := ⟨⟨_, htext⟩, ⟨_, hplace⟩, by decide +kernel⟩
  have hdefault : Naming.Accepted {} := ⟨{}, rfl, by decide +kernel⟩
  have hother : Naming.Accepted { clientType := "Groups" } :=
    ⟨{ codegen := { clientType := "Groups" } }, rfl, by decide +kernel⟩
  have hnone : ∀ key ∈ [Key.name "PodGroup", .index 12, .name "Pod", .index 1],
      key.counts (Text.lines "mod pods;\n".toList) = (0, 0) := by decide +kernel
  have haccepted : ∀ c ∈ [Call.client group {}, .server 12 pod {}, .client pod {}, .server 1 group {},
      .client group { clientType := "Groups" }], c.naming.Accepted := by
    intro c hc
    simp only [List.mem_cons, List.not_mem_nil, or_false] at hc
    rcases hc with rfl | rfl | rfl | rfl | rfl
    · exact hdefault
    · exact hdefault
    · exact hdefault
    · exact hdefault
    · exact hother
  have hclean : ∀ c ∈ [Call.client group {}, .server 12 pod {}, .client pod {}, .server 1 group {},
      .client group { clientType := "Groups" }], c.key.counts (Text.lines "mod pods;\n".toList) = (0, 0) := by
    intro c hc
    refine hnone c.key ?_
    simp only [List.mem_cons, List.not_mem_nil, or_false] at hc
    rcases hc with rfl | rfl | rfl | rfl | rfl <;>
      simp [Call.key, Rendering.clientKey, Rendering.serverKey, hpod, hgroup]
  obtain ⟨outcomes, u, hrun, hu⟩ := text_runAll htext haccepted hclean (runAll_of_replaceable hfile _)
  exact ⟨_, u, outcomes, pod, group, hpod, hgroup, htext, hrun, hu⟩

end ResourceWatch.Generation
