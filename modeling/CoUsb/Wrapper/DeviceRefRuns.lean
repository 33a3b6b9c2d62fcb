import CoUsb.Lib.Slots
import CoUsb.Wrapper.DeviceRef

/-!
# Sequences of operations on references

What the sequences of a caller do to the references below a number, and to the vector; the acceptor runs them.
-/

namespace CoUsb.DeviceRef

variable {d d' : State} {r : DeviceRef} {i j dev : Nat}

theorem live_lt (live : d.live i = some r) : i < d.refs.length :=
  (List.getElem?_eq_some_iff.mp (live_at live)).1

theorem live_eq_look (d : State) (i : Nat) : d.live i = Slots.look id d.refs i := rfl

theorem live_add {new : DeviceRef × List Call} :
    (d.add new).live i = if i = d.refs.length then some new.1 else d.live i := by
  rw [live_eq_look, live_eq_look]
  exact Slots.look_append

theorem live_put {next : Option DeviceRef} {calls : List Call} (live : d.live j = some r) :
    (d.put j next calls).live i = if i = j then next else d.live i := by
  rw [live_eq_look, live_eq_look]
  exact Slots.look_set (live_lt live)

@[simp] theorem live_fill {elements : List DeviceRef × List Call} : (d.fill elements).live i = d.live i := rfl

theorem length_add {new : DeviceRef × List Call} : (d.add new).refs.length = d.refs.length + 1 := by
  simp [State.add]

@[simp] theorem length_put {next : Option DeviceRef} {calls : List Call} :
    (d.put j next calls).refs.length = d.refs.length := by
  simp [State.put]

/-! ### Sequences -/

/-- Operations lead from `d` to `d'`: of the first `n` references only the one in `changed` differs, and the calls stay
exact when `even` holds. -/
structure Leads (n : Nat) (d : State) (operations : List Event) (d' : State)
    (changed : Option Nat) (even : Prop) : Prop where
  run : machine.run d operations = some d'
  longer : n ≤ d'.refs.length
  others : ∀ i < n, changed ≠ some i → d'.live i = d.live i
  even : machine.Meets OntoEmpty d operations ↔ even

variable {n : Nat} {e : Event} {es : List Event} {d₁ : State} {changed : Option Nat}
  {even : Prop}

theorem leads_none (changed : Option Nat) (inside : n ≤ d.refs.length) : Leads n d [] d changed True :=
  ⟨rfl, inside, fun _ _ _ => rfl, iff_of_true Machine.meets_nil trivial⟩

theorem Leads.step (first : machine.step d e = some d₁)
    (others : ∀ i < n, changed ≠ some i → d₁.live i = d.live i) (later : Leads n d₁ es d' changed even) :
    Leads n d (e :: es) d' changed (OntoEmpty d e ∧ even) := by
  refine ⟨Machine.run_cons.mpr ⟨d₁, first, later.run⟩, later.longer, fun i lt apart => ?_, ?_⟩
  · exact (later.others i lt apart).trans (others i lt apart)
  · rw [Machine.meets_cons_of first, later.even]

theorem Leads.congr {even' : Prop} (leads : Leads n d es d' changed even) (same : even ↔ even') :
    Leads n d es d' changed even' :=
  ⟨leads.run, leads.longer, leads.others, leads.even.trans same⟩

theorem Leads.cons (first : machine.step d e = some d₁) (onto : OntoEmpty d e)
    (others : ∀ i < n, changed ≠ some i → d₁.live i = d.live i) (later : Leads n d₁ es d' changed even) :
    Leads n d (e :: es) d' changed even :=
  (later.step first others).congr (and_iff_right onto)

theorem Leads.add {new : DeviceRef × List Call} (inside : n ≤ d.refs.length)
    (first : machine.step d e = some (d.add new)) (onto : OntoEmpty d e)
    (later : Leads n (d.add new) es d' changed even) : Leads n d (e :: es) d' changed even := by
  refine later.cons first onto fun i lt _ => ?_
  rw [live_add, if_neg (lt.trans_le inside).ne]

theorem Leads.put {next : Option DeviceRef} {calls : List Call} (live : d.live j = some r)
    (first : machine.step d e = some (d.put j next calls)) (onto : OntoEmpty d e)
    (own : n ≤ j ∨ changed = some j) (later : Leads n (d.put j next calls) es d' changed even) :
    Leads n d (e :: es) d' changed even := by
  refine later.cons first onto fun i lt apart => ?_
  have other : i ≠ j := by
    rintro rfl
    exact own.elim (fun above => absurd lt (not_lt.mpr above)) apart
  rw [live_put live, if_neg other]

/-! ### The sequences of the acceptor -/

theorem onto_empty (live : d.live i = some {}) : ∀ this, d.live i = some this → this.mDev = none := by
  intro this held
  obtain rfl := Option.some.inj (live.symm.trans held)
  rfl

theorem leads_destroy (live : d.live j = some r) (own : n ≤ j ∨ changed = some j)
    (later : Leads n (d.put j none r.destroy) es d' changed even) : Leads n d (.destroy j :: es) d' changed even := by
  refine Leads.put live ?_ trivial own later
  simp [machine, step, live]

theorem leads_take {rest : List DeviceRef} (live : d.live i = some {}) (last : d.elements = rest ++ [r])
    (inside : n ≤ d.refs.length) : ∃ d', Leads n d [.assignElement i rest.length, .popBack] d' (some i) True ∧
      d'.elements = rest ∧ d'.live i = some r := by
  have at_last : d.elements[rest.length]? = some r := by rw [last, List.getElem?_concat_length]
  let d₁ := d.put i (some r) r.refs
  have first : machine.step d (.assignElement i rest.length) = some d₁ := by
    simp [machine, step, live, at_last, assign, d₁]
  have second : machine.step d₁ .popBack = some (d₁.fill (popBack d₁.elements)) := by
    have filled : d₁.elements ≠ [] := by simp [d₁, State.put, last]
    simp [machine, step, filled]
  have popped : Leads n d₁ [.popBack] (d₁.fill (popBack d₁.elements)) (some i) True :=
    Leads.cons second trivial (fun _ _ _ => live_fill) (leads_none _ (by simpa [d₁, State.fill] using inside))
  refine ⟨_, Leads.put live first (onto_empty live) (.inr rfl) popped, ?_, ?_⟩
  · simp [State.fill, popBack, d₁, State.put, last]
  · rw [live_fill, live_put live, if_pos rfl]

theorem leads_store (dev : Nat) (reallocates : Bool) (inside : n ≤ d.refs.length) :
    ∃ d', Leads n d [.fromDevice dev, .emplaceBack dev reallocates, .destroy d.refs.length] d' none True ∧
      d'.elements = d.elements ++ [⟨some dev⟩] := by
  let d₁ := d.add (ofDevice dev)
  let d₂ := d₁.fill (emplaceBack d₁.elements dev reallocates)
  have live : d₂.live d.refs.length = some ⟨some dev⟩ := by
    rw [live_fill, live_add, if_pos rfl]
    rfl
  have longer : n ≤ d₂.refs.length := by
    show n ≤ d₁.refs.length
    rw [length_add]
    omega
  have ended := leads_destroy live (.inl inside) (leads_none none (length_put.symm ▸ longer))
  refine ⟨_, Leads.add inside rfl trivial (Leads.cons rfl trivial (fun _ _ _ => live_fill) ended), ?_⟩
  show d₂.elements = _
  cases reallocates with
  | false => rfl
  | true => simp [d₂, d₁, State.fill, State.add, emplaceBack, ofDevice, copy]

theorem leads_hand (live : d.live i = some {}) (inside : n ≤ d.refs.length) (dev : Nat) :
    ∃ d', Leads n d [.fromDevice dev, .fromDevice dev, .assign i (d.refs.length + 1), .destroy (d.refs.length + 1),
        .destroy d.refs.length] d' (some i) True ∧ d'.elements = d.elements ∧ d'.live i = some ⟨some dev⟩ := by
  have lt := live_lt live
  let r : DeviceRef := ⟨some dev⟩
  let d₁ := d.add (ofDevice dev)
  let d₂ := d₁.add (ofDevice dev)
  have length₁ : d₁.refs.length = d.refs.length + 1 := length_add
  have length₂ : d₂.refs.length = d.refs.length + 2 := length_add.trans (by rw [length₁])
  have live₂ : d₂.live i = some {} := by
    rw [live_add, if_neg (by omega), live_add, if_neg (by omega), live]
  have outer₂ : d₂.live d.refs.length = some r := by
    rw [live_add, if_neg (by omega), live_add, if_pos rfl]
    rfl
  have inner₂ : d₂.live (d.refs.length + 1) = some r := by
    rw [live_add, if_pos length₁.symm]
    rfl
  let d₃ := d₂.put i (some r) r.refs
  have assigned : machine.step d₂ (.assign i (d.refs.length + 1)) = some d₃ := by
    simp [machine, step, live₂, inner₂, assign, d₃, r]
  have inner₃ : d₃.live (d.refs.length + 1) = some r := by rw [live_put live₂, if_neg (by omega), inner₂]
  let d₄ := d₃.put (d.refs.length + 1) none r.destroy
  have outer₄ : d₄.live d.refs.length = some r := by
    rw [live_put inner₃, if_neg (by omega), live_put live₂, if_neg (by omega), outer₂]
  have length₄ : n ≤ d₄.refs.length := by rw [length_put, length_put]; omega
  have ended := leads_destroy outer₄ (.inl inside) (leads_none (some i) (length_put.symm ▸ length₄))
  have inner := leads_destroy inner₃ (.inl (by omega)) ended
  have assigns := Leads.put live₂ assigned (onto_empty live₂) (.inr rfl) inner
  refine ⟨_, Leads.add inside rfl trivial (Leads.add (d := d₁) (by omega) rfl trivial assigns), rfl, ?_⟩
  rw [live_put outer₄, if_neg (by omega), live_put inner₃, if_neg (by omega), live_put live₂, if_pos rfl]

theorem leads_left (dev : Nat) (inside : n ≤ d.refs.length) {position : Option Nat}
    (found : ∀ p, position = some p → p < d.elements.length) :
    ∃ d', Leads n d (.fromDevice dev :: position.toList.map .erase ++ [.destroy d.refs.length]) d' none
        (∀ p, position = some p → p + 1 = d.elements.length) ∧
      d'.elements = position.elim d.elements d.elements.eraseIdx := by
  let d₁ := d.add (ofDevice dev)
  have live₁ : d₁.live d.refs.length = some ⟨some dev⟩ := by
    rw [live_add, if_pos rfl]
    rfl
  have longer : n ≤ d₁.refs.length := by
    rw [length_add]
    omega
  have ends : ∀ {d₂ : State}, d₂.refs = d₁.refs →
      Leads n d₂ [.destroy d.refs.length] (d₂.put d.refs.length none (destroy ⟨some dev⟩)) none True := by
    intro d₂ same
    have live₂ : d₂.live d.refs.length = some ⟨some dev⟩ := by
      rw [← live₁]
      simp only [State.live, same]
    exact leads_destroy live₂ (.inl inside) (leads_none none (length_put.symm ▸ same ▸ longer))
  cases position with
  | none => exact ⟨_, (Leads.add (e := .fromDevice dev) inside rfl trivial (ends rfl)).congr (by simp), rfl⟩
  | some p =>
    have lt := found p rfl
    let d₂ := d₁.fill (erase d₁.elements p)
    have erased : machine.step d₁ (.erase p) = some d₂ := if_pos lt
    have same : d₂.refs = d₁.refs := rfl
    have later := (ends same).step erased fun _ _ _ => live_fill
    refine ⟨_, (Leads.add (e := .fromDevice dev) inside rfl trivial later).congr ?_, ?_⟩
    · simp [OntoEmpty, d₁, State.add, eq_comm]
    · have whole : d.elements = d.elements.take p ++ d.elements[p] :: d.elements.drop (p + 1) := by
        rw [← List.drop_eq_getElem_cons lt, List.take_append_drop]
      have length : (d.elements.take p).length = p := List.length_take_of_le lt.le
      have shifted : ∀ (before : List DeviceRef) (this : DeviceRef) (rest : List DeviceRef),
          (erase (before ++ this :: rest) before.length).1 = before ++ rest := by
        intro before this rest
        rw [erase_eq]
      have erased := shifted (d.elements.take p) d.elements[p] (d.elements.drop (p + 1))
      rw [← whole, length] at erased
      exact erased.trans (List.eraseIdx_eq_take_drop_succ ..).symm

theorem leads_clear (inside : n ≤ d.refs.length) :
    Leads n d [.clear] (d.fill (clear d.elements)) none True :=
  Leads.cons rfl trivial (fun _ _ _ => live_fill) (leads_none none inside)

/-- A sequence of operations keeps the calls exact when no reference that holds a device is assigned to. -/
theorem exact_run {d d' : State} {es : List Event}
    (kept : Filled d ∧ (account d).Solvent) (run : machine.run d es = some d') :
    (Filled d' ∧ (account d').Solvent) ∧
      (Exact d' ↔ Exact d ∧ machine.Meets OntoEmpty d es) := by
  refine Machine.meets_iff_from (I := fun d => Filled d ∧ (account d).Solvent) ?_ kept run
  rintro d e d' ⟨filled, solvent⟩ step
  obtain ⟨account, filled'⟩ := operates_step filled step
  obtain ⟨solvent', same⟩ := account.keeps solvent
  exact ⟨⟨filled', solvent'⟩, by rw [exact_iff, exact_iff, same]⟩

end CoUsb.DeviceRef
