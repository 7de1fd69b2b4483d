import Stencil.Proofs.Template.Occurrences
/-!
# What a template asks for

The parameters of a template are of all that its placeholders ask for the first of each key.  They can be put together from
the parameters of smaller templates: of the elements of an array, and of the values and the keys of an object.
-/
namespace Stencil.Template

variable {o : Options}

theorem parameters_eq_firstWins (o : Options) (v : Value) :
    (compile o v).parameters = firstWins (·.key) v.occurrences :=
  congrArg (firstWins _) (Node.parameters_ofValue v)

theorem firstWinsFrom_parameters (o : Options) (v : Value) (seen : List String) :
    firstWinsFrom (·.key) seen (compile o v).parameters = firstWinsFrom (·.key) seen v.occurrences := by
  rw [parameters_eq_firstWins, firstWinsFrom_firstWins]

theorem parameters_array (items : List Value) :
    (compile o (.array items)).parameters = firstWins (·.key) (items.flatMap fun v => (compile o v).parameters) := by
  rw [parameters_eq_firstWins, Value.occurrences_array, firstWins, firstWins]
  exact firstWinsFrom_flatMap_congr (fun v _ seen => (firstWinsFrom_parameters o v seen).symm) []

theorem parameters_object (es : List (String × Value)) : (compile o (.object es)).parameters =
    firstWins (·.key) (es.flatMap fun e => (compile o e.2).parameters ++ (compile o (.string e.1)).parameters) := by
  rw [parameters_eq_firstWins, Value.occurrences_object, firstWins, firstWins]
  refine firstWinsFrom_flatMap_congr (fun e _ => firstWinsFrom_append_congr ?_ ?_) []
  · exact fun seen => (firstWinsFrom_parameters o e.2 seen).symm
  · exact fun seen => (firstWinsFrom_parameters o (.string e.1) seen).symm

/-- **A template asks for the first parameter of each key**, in the order in which the keys first come, whatever the options
are.  An array asks for what its elements ask for, and an object for what its entries ask for, each value before its key;
of these again the first of each key. -/
theorem parameters_summarize (o : Options) :
    (∀ v, Summarizes (·.key) v.occurrences (compile o v).parameters) ∧
    (∀ o' v, (compile o' v).parameters = (compile o v).parameters) ∧
    (∀ items, (compile o (.array items)).parameters =
      firstWins (·.key) (items.flatMap fun v => (compile o v).parameters)) ∧
    (∀ es, (compile o (.object es)).parameters =
      firstWins (·.key) (es.flatMap fun e => (compile o e.2).parameters ++ (compile o (.string e.1)).parameters)) := by
  refine ⟨fun v => ?_, fun o' v => ?_, parameters_array, parameters_object⟩
  · rw [parameters_eq_firstWins]
    exact summarizes_firstWins _ _
  · rw [parameters_eq_firstWins, parameters_eq_firstWins]

/-- A key in a nested object comes before the key of its entry, and the first of its defaults stands. -/
example : (compile .default (.object [("\x7b\x7ba\x7d\x7d", .object [("\x7b\x7bb\x7d\x7d", .string "\x7b\x7bc:1\x7d\x7d")]),
    ("\x7b\x7bc:2\x7d\x7d", .string "\x7b\x7bb:3\x7d\x7d")])).parameters = [⟨"c", some "1"⟩, ⟨"b", none⟩, ⟨"a", none⟩] := by
  cbv

end Stencil.Template
