import ReversePolish.Config
import ReversePolish.Proofs.Variables
import Mathlib.Data.List.Nodup

/-!
The variables of a configuration are a map, listed in the ascending order of its names.

Whatever a document says, and wherever it takes entries over, a name that comes again replaces what
was there (`distinct_setVariable`). So what is kept by putting one entry in its place is kept by the
reading of a whole mapping (`Decoder.Gives.mapping`): first for the table of variables, whose names
stay apart, and then for the configuration, which stays `Ordered`.
-/

namespace ReversePolish

namespace Yaml.Decoder

variable {σ α β : Type}

/-- All that can be read has a property. -/
def Gives (read : Decoder α) (P : α → Prop) : Prop :=
  ∀ p a p', read p = .ok a p' → P a

namespace Gives

theorem anyway (read : Decoder α) : read.Gives fun _ => True :=
  fun _ _ _ _ => trivial

theorem pure {P : α → Prop} {a : α} (holds : P a) : Gives (pure a) P := by
  intro p b p' done
  cases done
  exact holds

theorem throw {P : α → Prop} (e : Failure) : Gives (throw e) P := by
  intro p a p' done
  cases done

theorem bind {P : α → Prop} {Q : β → Prop} {read : Decoder α} {next : α → Decoder β}
    (first : read.Gives P) (later : ∀ a, P a → (next a).Gives Q) : (read >>= next).Gives Q := by
  intro p b p' done
  change EStateM.bind read next p = _ at done
  unfold EStateM.bind at done
  split at done
  · rename_i a p'' here
    exact later a (first p a p'' here) p'' b p' done
  · cases done

/-- What follows may hold whatever comes first. -/
theorem after {Q : β → Prop} {read : Decoder α} {next : α → Decoder β}
    (later : ∀ a, (next a).Gives Q) : (read >>= next).Gives Q :=
  bind (anyway read) fun a _ => later a

/-- What every step keeps holds at the end of a list. -/
theorem foldlM {P : σ → Prop} {step : σ → α → Decoder σ}
    (keeps : ∀ s a, P s → (step s a).Gives P) {s : σ} (holds : P s) (items : List α) :
    (items.foldlM step s).Gives P := by
  induction items generalizing s with
  | nil => exact pure holds
  | cons a rest ih =>
      rw [List.foldlM_cons]
      exact bind (keeps s a holds) fun next kept => ih kept

theorem visit {P : α → Prop} {read : Node → Decoder α} (each : ∀ n, (read n).Gives P) (n : Node) :
    (visit read n).Gives P := by
  refine after fun _ => ?_
  split
  · refine after fun _ => ?_
    split
    · exact throw _
    · refine after fun _ => after fun _ => after fun m => ?_
      exact bind (each m) fun a holds => after fun _ => pure holds
  · exact each n

/-! ## Mappings -/

section Mappings

variable {P : σ → Prop} {shape : Shape σ}

/-- Entries are taken over from mappings only, and there they are read as everywhere. -/
theorem takeOver {fuel : Nat}
    (each : ∀ s, P s → ∀ taken n, (Decoder.entries shape fuel s taken n).Gives fun r => P r.1)
    (r : σ × Option (List String)) (source : Node) (holds : P r.1) :
    Gives (do
      if ← isMapping source then Decoder.visit (Decoder.entries shape fuel r.1 r.2) source
      else MonadExcept.throw Failure.badMerge) fun r => P r.1 := by
  refine after fun there => ?_
  split
  · exact visit (each r.1 holds r.2) source
  · exact throw _

variable (keeps : ∀ takenOver s name n, P s → (shape.put takenOver s name n).Gives P)
include keeps

theorem entry {f : Filling σ} (holds : P f.state) (key content : Node) :
    (entry shape f key content).Gives fun f => P f.state := by
  unfold Decoder.entry
  split
  · exact pure holds
  · refine after fun name? => ?_
    cases name? with
    | none => exact pure holds
    | some name =>
        dsimp only
        split
        · exact pure holds
        · split
          · exact after fun _ => pure holds
          · exact bind (keeps _ _ name content holds) fun s kept => pure kept

theorem entries (fuel : Nat) {s : σ} (holds : P s) (taken : Option (List String)) (n : Node) :
    (entries shape fuel s taken n).Gives fun r => P r.1 := by
  induction fuel generalizing s taken n with
  | zero => exact pure holds
  | succ fuel ih =>
      cases n with
      | mapping line tag pairs =>
          unfold Decoder.entries
          refine after fun single => ?_
          split
          · refine bind (foldlM (P := fun f => P f.state) ?_ holds pairs) fun f filled => ?_
            · intro f pair before
              exact entry keeps before pair.1 pair.2
            · split
              · exact pure filled
              · -- the entries that are taken over are read in the same way
                have merge := takeOver fun _ before taken n => ih before taken n
                dsimp only
                split
                · exact after fun _ => bind (foldlM merge filled _) fun _ merged => pure merged
                · exact after fun _ => bind (foldlM merge filled _) fun _ merged => pure merged
          · exact pure holds
      | _ => exact pure holds

/-- What every entry keeps when it is put in its place is kept by a mapping. -/
theorem mapping (fuel : Nat) {s : σ} (holds : P s) (n : Node) :
    (mapping shape fuel s n).Gives P := by
  refine visit (fun m => ?_) n
  split
  · exact bind (entries keeps fuel holds none _) fun r kept => pure kept
  · exact after fun _ => pure holds

end Mappings

end Gives

end Yaml.Decoder

theorem Yaml.Document.of_decode {α : Type} {P : α → Prop} {d : Document} {read : Node → Decoder α}
    {a : α} {errors : List TypeError} (gives : (read d.root).Gives P)
    (decoded : d.decode read = .ok (a, errors)) : P a := by
  unfold decode at decoded
  split at decoded
  · rename_i b p done
    cases decoded
    exact gives _ a p done
  · cases decoded

namespace Config

open Yaml Yaml.Decoder

/-- The variables are a map, listed in the ascending order of the names. -/
def Ordered (c : Config) : Prop :=
  (c.vars.map (·.1)).Pairwise (· < ·)

instance (c : Config) : Decidable c.Ordered :=
  inferInstanceAs (Decidable ((c.vars.map (·.1)).Pairwise (· < ·)))

/-! ## Tables of variables -/

theorem distinct_setVariable {table : List (String × Value)} (distinct : (table.map (·.1)).Nodup)
    (name : String) (v : Value) : ((setVariable table name v).map (·.1)).Nodup := by
  have others : ((table.filter (·.1 != name)).map (·.1)).Nodup :=
    distinct.sublist (List.filter_sublist.map _)
  have fresh : name ∉ (table.filter (·.1 != name)).map (·.1) := by simp
  rw [setVariable, List.map_append]
  exact others.append (List.nodup_singleton name) (List.disjoint_singleton.mpr fresh)

theorem distinct_tableShape (takenOver : Bool) (table : List (String × Value)) (name : String)
    (n : Node) (distinct : (table.map (·.1)).Nodup) :
    (tableShape.put takenOver table name n).Gives fun table => (table.map (·.1)).Nodup := by
  refine Gives.after fun v? => ?_
  cases v? with
  | some v => exact Gives.pure (distinct_setVariable distinct name v)
  | none =>
      refine Gives.after fun nothing => Gives.pure ?_
      split
      · exact distinct_setVariable distinct name 0
      · exact distinct

/-! ## Configurations -/

theorem store_gives {α : Type} {c : Config} {read : Decoder (Option α)} {put : α → Config}
    (ordered : c.Ordered) (kept : ∀ a, (put a).Ordered) : (c.store read put).Gives Ordered := by
  refine Gives.after fun a? => ?_
  cases a? with
  | some a => exact Gives.pure (kept a)
  | none => exact Gives.pure ordered

theorem ordered_jsonShape (takenOver : Bool) (c : Config) (name : String) (n : Node)
    (ordered : c.Ordered) : (jsonShape.put takenOver c name n).Gives Ordered := by
  unfold jsonShape
  dsimp only
  split
  · exact store_gives ordered fun _ => ordered
  · exact store_gives ordered fun _ => ordered
  · exact Gives.pure ordered

theorem ordered_shape (fuel : Nat) (takenOver : Bool) (c : Config) (name : String) (n : Node)
    (ordered : c.Ordered) : ((shape fuel).put takenOver c name n).Gives Ordered := by
  unfold shape
  dsimp only
  split
  case h_8 =>
    have table := Gives.mapping distinct_tableShape fuel (s := []) List.nodup_nil n
    refine Gives.bind table fun entries apart => ?_
    exact Gives.pure (Variables.pairwise_lt_names_mergeSort apart)
  case h_9 => exact Gives.mapping ordered_jsonShape fuel ordered n
  case h_10 => exact Gives.pure ordered
  all_goals exact store_gives ordered fun _ => ordered

theorem eq_of_validate {c c' : Config} (valid : c.validate = .ok c') : c' = c := by
  unfold validate at valid
  split at valid
  · cases valid
  · split at valid
    · cases valid
    · cases valid
      rfl

/-- A configuration that can be read is in order. -/
theorem ordered_of_parse {text : String} {c : Config} (parsed : parse text = .ok c) :
    c.Ordered := by
  unfold parse at parsed
  dsimp only at parsed
  split at parsed
  · cases parsed
  · rw [eq_of_validate parsed]
    exact List.Pairwise.nil
  · split at parsed
    · cases parsed
    · rename_i file decoded
      rw [eq_of_validate parsed]
      refine Document.of_decode (Gives.mapping (ordered_shape _) _ ?_ _) decoded
      exact List.Pairwise.nil
    · cases parsed

end Config

end ReversePolish
