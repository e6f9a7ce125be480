import FirmataSketch.Disk.Basic

/-! What is at the places of a tree, and what becomes of it when a node is put into a folder. -/

namespace FirmataSketch.Disk

theorem lookup_cons_eq {α : Type} (m : String) (e : String × α) (entries : List (String × α)) :
    (e :: entries).lookup m = if m = e.1 then some e.2 else entries.lookup m := by
  rw [List.lookup_cons]
  by_cases h : m = e.1
  · simp [h]
  · have hne : (m == e.1) = false := by simpa using h
    rw [if_neg h, hne]

theorem lookup_setEntry (name : String) (n : Node) (entries : List (String × Node)) (m : String) :
    (setEntry name n entries).lookup m = if m = name then some n else entries.lookup m := by
  induction entries with
  | nil => exact lookup_cons_eq m (name, n) []
  | cons e entries ih =>
    rw [setEntry, lookup_cons_eq]
    by_cases he : e.1 = name
    · rw [if_pos he, lookup_cons_eq, he]
      by_cases h : m = name
      · rw [if_pos h, if_pos h]
      · rw [if_neg h, if_neg h, if_neg h]
    · rw [if_neg he, lookup_cons_eq, ih]
      by_cases h : m = e.1
      · have hne : m ≠ name := fun hm => he (h.symm.trans hm)
        rw [if_pos h, if_neg hne, if_pos h]
      · rw [if_neg h, if_neg h]

theorem setEntry_of_lookup {name : String} {n : Node} {entries : List (String × Node)}
    (h : entries.lookup name = some n) : setEntry name n entries = entries := by
  induction entries with
  | nil => cases h
  | cons e entries ih =>
    rw [lookup_cons_eq] at h
    rw [setEntry]
    by_cases he : e.1 = name
    · rw [if_pos he.symm, Option.some.injEq] at h
      rw [if_pos he, ← he, ← h]
    · rw [if_neg (Ne.symm he)] at h
      rw [if_neg he, ih h]

/-- The last setting of an entry is the one that counts. -/
theorem setEntry_setEntry (name : String) (n n' : Node) (entries : List (String × Node)) :
    setEntry name n' (setEntry name n entries) = setEntry name n' entries := by
  induction entries with
  | nil => simp [setEntry]
  | cons e entries ih =>
    rw [setEntry]
    by_cases he : e.1 = name
    · rw [if_pos he, setEntry, if_pos rfl, setEntry, if_pos he]
    · rw [if_neg he, setEntry, if_neg he, ih, setEntry, if_neg he]

/-- What can be at a place. -/
inductive Kind where
  | folder
  | file (bytes : ByteArray)

namespace Node

def kind : Node → Kind
  | .file bytes => .file bytes
  | .folder _ => .folder

def kindAt (n : Node) (q : Place) : Option Kind := (n.find? q).map kind

variable {n : Node} {here : Place}

theorem kindAt_nil (n : Node) : n.kindAt [] = some n.kind := by
  cases n <;> rfl

theorem kindAt_eq_folder_iff {q : Place} :
    n.kindAt q = some .folder ↔ ∃ entries, n.find? q = some (.folder entries) := by
  unfold kindAt
  constructor
  · intro h
    obtain ⟨found, hfound, hkind⟩ := Option.map_eq_some_iff.1 h
    cases found with
    | file bytes => cases hkind
    | folder entries => exact ⟨entries, hfound⟩
  · rintro ⟨entries, h⟩
    rw [h]
    rfl

theorem kindAt_of_find? {q : Place} {found : Node} (h : n.find? q = some found) :
    n.kindAt q = some found.kind := by
  rw [kindAt, h]
  rfl

theorem kindAt_eq_none_iff {q : Place} : n.kindAt q = none ↔ n.find? q = none :=
  Option.map_eq_none_iff

theorem kindAt_folder_cons (entries : List (String × Node)) (name : String) (q : Place) :
    kindAt (.folder entries) (name :: q) = (entries.lookup name).bind (·.kindAt q) := by
  unfold kindAt
  rw [find?]
  cases entries.lookup name <;> rfl

theorem kindAt_append (n : Node) (p q : Place) :
    n.kindAt (p ++ q) = (n.find? p).bind (·.kindAt q) := by
  induction p generalizing n with
  | nil => cases n <;> rfl
  | cons name p ih =>
    cases n with
    | file bytes => rfl
    | folder entries =>
      rw [List.cons_append, kindAt_folder_cons, find?]
      cases entries.lookup name with
      | none => rfl
      | some n => exact ih n

theorem find?_cons_some {name : String} {found : Node} (h : n.find? (name :: here) = some found) :
    ∃ entries inner, n = .folder entries ∧ entries.lookup name = some inner ∧
      inner.find? here = some found := by
  cases n with
  | file bytes => cases h
  | folder entries =>
    rw [find?] at h
    cases hlookup : entries.lookup name with
    | none =>
      rw [hlookup] at h
      cases h
    | some inner =>
      rw [hlookup] at h
      exact ⟨entries, inner, rfl, hlookup, h⟩

theorem put_cons_of_lookup {entries : List (String × Node)} {name : String} {inner : Node}
    (h : entries.lookup name = some inner) {place : Place} (hplace : place ≠ []) (new : Node) :
    put (.folder entries) (name :: place) new =
      .folder (setEntry name (inner.put place new) entries) := by
  cases place with
  | nil => exact absurd rfl hplace
  | cons next place => rw [put, h]

/-- A node that is put into a folder changes nothing but its own place and those below it. -/
theorem kindAt_put {entries : List (String × Node)} (h : n.find? here = some (.folder entries))
    (name : String) (new : Node) (q : Place) :
    (n.put (here ++ [name]) new).kindAt q =
      if here ++ [name] <+: q then new.kindAt (q.drop (here.length + 1)) else n.kindAt q := by
  induction here generalizing n q with
  | nil =>
    obtain rfl := Option.some.inj h
    cases q with
    | nil => simp [put, kindAt_nil, kind]
    | cons m q =>
      have hput : (folder entries).put ([] ++ [name]) new = .folder (setEntry name new entries) := rfl
      rw [hput, kindAt_folder_cons, lookup_setEntry, kindAt_folder_cons]
      by_cases hm : m = name
      · simp [hm]
      · have hbelow : ¬ [] ++ [name] <+: m :: q := fun hp =>
          hm (List.cons_prefix_cons.1 hp).1.symm
        rw [if_neg hm, if_neg hbelow]
  | cons a here ih =>
    obtain ⟨outer, inner, rfl, hlookup, hinner⟩ := find?_cons_some h
    rw [List.cons_append, put_cons_of_lookup hlookup (by simp)]
    cases q with
    | nil => simp [kindAt_nil, kind]
    | cons m q =>
      rw [kindAt_folder_cons, lookup_setEntry, kindAt_folder_cons]
      by_cases hm : m = a
      · subst hm
        rw [if_pos rfl, hlookup, Option.bind_some, Option.bind_some, ih hinner]
        simp
      · have hbelow : ¬ a :: (here ++ [name]) <+: m :: q := fun hp =>
          hm (List.cons_prefix_cons.1 hp).1.symm
        rw [if_neg hm, if_neg hbelow]

/-- A node cannot be put where there is no folder for it. -/
theorem put_of_not_folder (h : ∀ entries, n.find? here ≠ some (.folder entries)) (name : String)
    (new : Node) : n.put (here ++ [name]) new = n := by
  induction here generalizing n with
  | nil =>
    cases n with
    | file bytes => rfl
    | folder entries => exact absurd rfl (h entries)
  | cons a here ih =>
    cases n with
    | file bytes => rfl
    | folder entries =>
      cases hlookup : entries.lookup a with
      | none =>
        have hplace : ∃ next place, here ++ [name] = next :: place := by
          cases here <;> exact ⟨_, _, rfl⟩
        obtain ⟨next, place, hplace⟩ := hplace
        rw [List.cons_append, hplace, put, hlookup]
      | some inner =>
        have hinner : ∀ entries', inner.find? here ≠ some (.folder entries') := by
          intro entries' hfound
          refine h entries' ?_
          rw [find?, hlookup]
          exact hfound
        rw [List.cons_append, put_cons_of_lookup hlookup (by simp), ih hinner,
          setEntry_of_lookup hlookup]

/-- A node that is put in the place of another one takes it. -/
theorem put_put (n : Node) (place : Place) (new new' : Node) :
    (n.put place new).put place new' = n.put place new' := by
  induction place generalizing n with
  | nil => simp only [put]
  | cons name place ih =>
    cases n with
    | file bytes => rfl
    | folder entries =>
      cases place with
      | nil => simp only [put, setEntry_setEntry]
      | cons next place =>
        cases hlookup : entries.lookup name with
        | none => simp only [put, hlookup]
        | some inner =>
          rw [put_cons_of_lookup hlookup (by simp), put_cons_of_lookup hlookup (by simp),
            put_cons_of_lookup (by rw [lookup_setEntry, if_pos rfl]) (by simp), ih, setEntry_setEntry]

end Node

end FirmataSketch.Disk
