namespace Sandbox

structure Environment where
  bindings : List (String × ByteArray)

namespace Environment

def empty : Environment := ⟨[]⟩

def value? (env : Environment) (name : String) : Option ByteArray := env.bindings.lookup name

/-- The value as text. A value that is not UTF-8 counts as unset. -/
def text? (env : Environment) (name : String) : Option String :=
  (env.value? name).bind String.fromUTF8?

def set (env : Environment) (name : String) (value : ByteArray) : Environment :=
  ⟨(name, value) :: env.bindings.filter (·.1 != name)⟩

def setText (env : Environment) (name value : String) : Environment := env.set name value.toUTF8

theorem value?_set (env : Environment) (name : String) (value : ByteArray) :
    (env.set name value).value? name = some value := by
  simp [value?, set]

theorem value?_set_of_ne (env : Environment) {name other : String} (value : ByteArray)
    (ne : other ≠ name) : (env.set name value).value? other = env.value? other := by
  have kept (bindings : List (String × ByteArray)) :
      (bindings.filter (·.1 != name)).lookup other = bindings.lookup other := by
    induction bindings with
    | nil => rfl
    | cons binding rest ih =>
      by_cases same : binding.1 = name
      · rw [List.filter_cons_of_neg (by simp [same]), ih, List.lookup_cons, same,
          beq_false_of_ne ne]
      · rw [List.filter_cons_of_pos (by simp [same]), List.lookup_cons, List.lookup_cons, ih]
  rw [value?, set, List.lookup_cons, beq_false_of_ne ne]
  exact kept env.bindings

theorem text?_setText_of_ne (env : Environment) {name other : String} (value : String)
    (ne : other ≠ name) : (env.setText name value).text? other = env.text? other := by
  rw [text?, setText, value?_set_of_ne env _ ne, text?]

end Environment

end Sandbox
