import RoutingPlan.Plan.Builder
import RoutingPlan.Proofs.Keyed
import RoutingPlan.Proofs.Run.Audit

-- Execution records as JSON values. A record comes back from its value as it was unless its output
-- is null, which stands for no output there; and no run leaves such a record.

namespace RoutingPlan

open Json (Value)

-- The text of the time stands for it.
def Instant.Exact (t : Instant) : Prop :=
  ofText? t.text = some t

namespace Record

-- The record comes back from its value as it was.
def Exact (r : Record) : Prop :=
  ofValue? r.toValue = some r

-- The fields that a record has in its value.
def fields (r : Record) : List (Field × Value) :=
  [(.step, .string r.step), (.startedAt, .string r.startedAt.text),
    (.finishedAt, .string r.finishedAt.text), (.input, r.input)] ++
  (r.output.map fun v => (.output, v)).toList ++
  (r.routeKey.map fun key => (.routeKey, .string key)).toList

variable {r : Record} {fs fs' : List (Field × Value)}

theorem Field.ofName?_name (f : Field) : ofName? f.name = some f := by
  cases f <;> rfl

theorem nodup_fields : (r.fields.map (·.1)).Nodup := by
  cases output : r.output <;> cases key : r.routeKey <;>
    simp [fields, output, key]

theorem toJson_eq : r.toJson = .object (r.fields.map fun (f, v) => (f.name, v)) := by
  cases output : r.output <;> cases key : r.routeKey <;>
    simp [toJson, fields, optional, output, key]

theorem toValue_eq : r.toValue = .ofMembers (r.fields.map fun (f, v) => (f.name, v)) := by
  rw [toValue, toJson_eq]

-- The order of the fields does not matter.
theorem ofFields?_eq_of_perm (perm : fs.Perm fs') : ofFields? fs = ofFields? fs' := by
  have nodup : (fs.map (·.1)).Nodup ↔ (fs'.map (·.1)).Nodup := (perm.map _).nodup_iff
  simp only [ofFields?]
  by_cases h : (fs.map (·.1)).Nodup
  case pos =>
    rw [if_pos h, if_pos (nodup.mp h)]
    simp only [Keyed.get?_eq_of_perm h perm]
  case neg => rw [if_neg h, if_neg (mt nodup.mpr h)]

theorem ofValue?_toValue_eq : ofValue? r.toValue = ofFields? r.fields := by
  have names : (Keyed.keys (r.fields.map fun (f, v) => (f.name, v))).Nodup := by
    have injective : Function.Injective Field.name :=
      fun f f' same => Option.some.inj <| by rw [← f.ofName?_name, same, f'.ofName?_name]
    simpa [Keyed.keys, Function.comp_def] using nodup_fields.map injective
  have perm := (Keyed.perm_sorted names).filterMap fun e => (Field.ofName? e.1).map (·, e.2)
  rw [toValue_eq, Value.ofMembers, ofValue?, ofFields?_eq_of_perm perm, List.filterMap_map]
  simp [Field.ofName?_name]

theorem instant?_text {t : Instant} (exact : t.Exact) : instant? (.string t.text) = some t := by
  rw [instant?, Value.string?, Option.bind_some]
  exact exact

theorem ofValue?_toValue (began : r.startedAt.Exact) (ended : r.finishedAt.Exact) :
    ofValue? r.toValue = some { r with output := output? r.output } := by
  rw [ofValue?_toValue_eq, ofFields?, if_pos nodup_fields]
  obtain ⟨step, startedAt, finishedAt, input, output, key⟩ := r
  cases output <;> cases key <;>
    simp [fields, Keyed.get?, Value.string?, instant?_text began, instant?_text ended, output?,
      routeKey?]

theorem exact_iff (began : r.startedAt.Exact) (ended : r.finishedAt.Exact) :
    r.Exact ↔ r.output ≠ some .null := by
  rw [Exact, ofValue?_toValue began ended]
  obtain ⟨step, startedAt, finishedAt, input, output, key⟩ := r
  rcases output with _ | _ | _ <;> simp [output?]

end Record

namespace Run

variable {p : Plan} {clock : Clock} {c : Context} {r r' : Run}

-- A record that a run adds has the times at which the clock saw its invocation begin and end.
theorem records_of_invoke {id : NodeId} {step : Step} (h : r.invoke id step = some r') :
    r'.context.records = r.context.records ∨
      ∃ x, r'.context.records = r.context.records ++ [x] ∧
        (x.startedAt, x.finishedAt) = r.clock r.context.records.length := by
  cases step with
  | router name decide =>
    simp only [invoke] at h
    cases reply : decide r.context.workingInput r.context with
    | pending     => simp [reply] at h
    | failed e    => simp only [reply, Option.some.injEq] at h; exact .inl (h ▸ rfl)
    | done answer =>
      simp only [reply, Option.some.injEq] at h
      subst h
      cases answer with
      | none     => exact .inl rfl
      | some key =>
        rw [decided]
        split
        case isTrue  => exact .inl rfl
        case isFalse => exact .inr ⟨_, rfl, rfl⟩
  | action name act =>
    simp only [invoke] at h
    cases reply : act r.context.workingInput r.context with
    | pending     => simp [reply] at h
    | failed e    => simp only [reply, Option.some.injEq] at h; exact .inl (h ▸ rfl)
    | done answer =>
      simp only [reply, Option.some.injEq] at h
      subst h
      exact .inr ⟨_, rfl, rfl⟩

theorem records_of_move {e : Option Event} (h : r.move = some (r', e)) :
    r'.context.records = r.context.records ∨
      ∃ x, r'.context.records = r.context.records ++ [x] ∧
        (x.startedAt, x.finishedAt) = r.clock r.context.records.length := by
  obtain ⟨p, clock, c, phase⟩ := r
  cases phase with
  | ready | recorded | closing => cases h; exact .inl rfl
  | entering id =>
    cases known : p.node? id <;> simp only [move, known] at h <;> cases h <;> exact .inl rfl
  | invoking id step =>
    obtain ⟨_, invoked, eq⟩ := Option.map_eq_some_iff.mp h
    cases eq
    exact records_of_invoke invoked
  | finished => cases h

theorem Course.exists_times (course : Course (.start p clock c) r) :
    ∃ new, r.context.records = c.records ++ new ∧
      ∀ x ∈ new, ∃ n, (x.startedAt, x.finishedAt) = clock n := by
  induction course with
  | rest => exact ⟨[], (List.append_nil _).symm, nofun⟩
  | move course h ih =>
    have ⟨new, records, times⟩ := ih
    cases records_of_move h with
    | inl same  => exact ⟨new, same.trans records, times⟩
    | inr added =>
      have ⟨x, added, time⟩ := added
      refine ⟨new ++ [x], by rw [added, records, List.append_assoc], fun y hy => ?_⟩
      cases List.mem_append.mp hy with
      | inl hy => exact times y hy
      | inr hy => exact ⟨_, List.mem_singleton.mp hy ▸ course.clock_eq ▸ time⟩
  | fire _ ih =>
    have ⟨new, records, times⟩ := ih
    exact ⟨new, by simpa [cancel, Context.fire_token] using records, times⟩

theorem Course.exact_of_mem_records (course : Course (.start p clock c) r)
    (times : ∀ n, (clock n).1.Exact ∧ (clock n).2.Exact) (before : ∀ x ∈ c.records, x.Exact) :
    ∀ x ∈ r.context.records, x.Exact := by
  have ⟨new, records, clocked⟩ := course.exists_times
  have ⟨new', logged⟩ := course.exists_logged
  have same : new' = new := List.append_cancel_left <| logged.audited.records.symm.trans records
  subst same
  intro x hx
  rw [records] at hx
  cases List.mem_append.mp hx with
  | inl old   => exact before x old
  | inr added =>
    have ⟨n, time⟩ := clocked x added
    have ⟨began, ended⟩ := times n
    rw [← time] at began ended
    apply (Record.exact_iff began ended).mpr
    cases logged.audited.forms x added with
    | inl routed => rw [routed.left]; nofun
    | inr acted  => exact acted.right

theorem exact_records :
    (∀ x : Record, x.startedAt.Exact → x.finishedAt.Exact →
      (x.Exact ↔ x.output ≠ some .null) ∧
      (x.output = some .null → Record.ofValue? x.toValue = some { x with output := none })) ∧
    ∀ p clock c r, Course (.start p clock c) r →
      (∀ n, (clock n).1.Exact ∧ (clock n).2.Exact) → (∀ x ∈ c.records, x.Exact) →
        ∀ x ∈ r.context.records, x.Exact := by
  refine ⟨fun x began ended => ⟨Record.exact_iff began ended, fun null => ?_⟩, ?_⟩
  · rw [Record.ofValue?_toValue began ended, null]
    rfl
  · exact fun p clock c r course => course.exact_of_mem_records

-- An action that always answers null, after a run that has left a record of it.
theorem exact_records_hush :
    let now : Instant := ⟨951782400, 500000000⟩
    let hush : Record := .acted "hush" now now (.string "sales") none
    let c : Context := ⟨⟨"run"⟩, .string "sales", none, none, [hush], [], now, ⟨0, false⟩⟩
    let quiet := Plan.Builder.empty.addStep <| .action "hush" fun _ _ => .done (some .null)
    ∃ p, quiet.2.build quiet.1 = .ok p ∧
      (p.execute (fun _ => (now, now)) c p.moves).1.context.records = [hush, hush] ∧
      hush.Exact ∧ ¬{ hush with output := some .null }.Exact := by
  intro now hush c quiet
  have time : Instant.ofText? now.text = some now := by decide +kernel
  have ⟨p, built, records⟩ : ∃ p, quiet.2.build quiet.1 = .ok p ∧
      (p.execute (fun _ => (now, now)) c p.moves).1.context.records = [hush, hush] :=
    ⟨_, rfl, rfl⟩
  have ⟨alone, runs⟩ := exact_records
  have before : ∀ x ∈ c.records, x.Exact := by
    intro x hx
    rw [List.mem_singleton.mp hx]
    exact (alone hush time time).left.mpr nofun
  have ⟨course, _⟩ := p.exists_course_execute (fun _ => (now, now)) c p.moves
  have after := runs _ _ _ _ course (fun _ => ⟨time, time⟩) before
  refine ⟨p, built, records, after hush (records ▸ List.mem_cons_self), ?_⟩
  exact fun exact => (alone { hush with output := some .null } time time).left.mp exact rfl

end Run
end RoutingPlan
