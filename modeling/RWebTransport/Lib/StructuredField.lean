import Mathlib.Data.List.Basic

/-!
# Strings in structured fields

The part of the RFC 9651 parsing algorithm that reads strings: a string, an item
that is one, and a list whose members are strings without parameters.  On other
input the functions answer `none`, which says nothing about it.

A string written with its quotes and backslashes escaped reads back, whatever
stands behind it, and so does a list of such strings with commas between them.
-/

namespace RWebTransport.StructuredField

/-! ## Parsing -/

/-- Parsing a string, behind its opening quote: its value and what is left. -/
def quoted : List Char → Option (List Char × List Char)
  | [] => none
  | c :: rest =>
      if c = '\\' then
        match rest with
        | [] => none
        | d :: rest =>
            if d = '"' ∨ d = '\\' then (quoted rest).map fun r => (d :: r.1, r.2) else none
      else if c = '"' then some ([], rest)
      else if c.toNat < 0x20 ∨ 0x7f ≤ c.toNat then none
      else (quoted rest).map fun r => (c :: r.1, r.2)

/-- Parsing a string. -/
def string : List Char → Option (List Char × List Char)
  | '"' :: rest => quoted rest
  | _ => none

/-- Spaces are discarded in front of a field and behind it. -/
def discardSp (cs : List Char) : List Char := cs.dropWhile fun c => c = ' '

/-- Spaces and tabs are discarded around a comma. -/
def discardOws (cs : List Char) : List Char := cs.dropWhile fun c => c = ' ' ∨ c = '\t'

/-- Parsing an item that is a string. -/
def item (cs : List Char) : Option (List Char) :=
  match string (discardSp cs) with
  | some (s, rest) => if discardSp rest = [] then some s else none
  | none => none

/-- Parsing the members of a list; a comma has a member behind it. -/
def members : Nat → List Char → Option (List (List Char))
  | 0, _ => none
  | fuel + 1, cs =>
      match string cs with
      | none => none
      | some (s, rest) =>
          match discardOws rest with
          | [] => some [s]
          | ',' :: rest => (members fuel (discardOws rest)).map (s :: ·)
          | _ => none

/-- Parsing a list; nothing at all is the empty list.  A member takes at least
two characters. -/
def list (cs : List Char) : Option (List (List Char)) :=
  if discardSp cs = [] then some [] else members (discardSp cs).length (discardSp cs)

/-! ## Writing -/

/-- The characters of a string, quotes and backslashes escaped. -/
def escape (cs : List Char) : List Char :=
  cs.flatMap fun c => if c = '"' ∨ c = '\\' then ['\\', c] else [c]

def quote (cs : List Char) : List Char := '"' :: escape cs ++ ['"']

/-- The members of a list. -/
def join (items : List (List Char)) : List Char := [',', ' '].intercalate (items.map quote)

/-! ## Reading back -/

/-- What a string may hold. -/
def Printable (cs : List Char) : Prop := ∀ c ∈ cs, 0x20 ≤ c.toNat ∧ c.toNat < 0x7f

theorem quoted_close (rest : List Char) : quoted ('"' :: rest) = some ([], rest) := by
  unfold quoted
  rfl

theorem quoted_escaped {c : Char} (hc : c = '"' ∨ c = '\\') (rest : List Char) :
    quoted ('\\' :: c :: rest) = (quoted rest).map fun r => (c :: r.1, r.2) := by
  rw [quoted.eq_def]
  simp only [if_pos hc, ↓reduceIte]

theorem quoted_plain {c : Char} (hc : ¬(c = '"' ∨ c = '\\')) (hlow : 0x20 ≤ c.toNat)
    (hhigh : c.toNat < 0x7f) (rest : List Char) :
    quoted (c :: rest) = (quoted rest).map fun r => (c :: r.1, r.2) := by
  rw [not_or] at hc
  rw [quoted.eq_def]
  simp only [if_neg hc.1, if_neg hc.2]
  rw [if_neg (by omega)]

theorem quoted_escape {cs : List Char} (h : Printable cs) (rest : List Char) :
    quoted (escape cs ++ '"' :: rest) = some (cs, rest) := by
  induction cs with
  | nil => exact quoted_close rest
  | cons c cs ih =>
      have hrest := ih fun d hd => h d (List.mem_cons_of_mem c hd)
      obtain ⟨hlow, hhigh⟩ := h c List.mem_cons_self
      by_cases hesc : c = '"' ∨ c = '\\'
      · have hwritten : escape (c :: cs) = '\\' :: c :: escape cs := by
          rw [escape, List.flatMap_cons, if_pos hesc]
          rfl
        rw [hwritten, List.cons_append, List.cons_append, quoted_escaped hesc, hrest, Option.map_some]
      · have hwritten : escape (c :: cs) = c :: escape cs := by
          rw [escape, List.flatMap_cons, if_neg hesc]
          rfl
        rw [hwritten, List.cons_append, quoted_plain hesc hlow hhigh, hrest, Option.map_some]

theorem string_quote {cs : List Char} (h : Printable cs) (rest : List Char) :
    string (quote cs ++ rest) = some (cs, rest) := by
  have hwritten : quote cs ++ rest = '"' :: (escape cs ++ '"' :: rest) := by
    simp [quote]
  rw [hwritten]
  exact quoted_escape h rest

/-- No space stands in front of a quote. -/
theorem discardSp_quote (cs rest : List Char) : discardSp (quote cs ++ rest) = quote cs ++ rest := rfl

theorem discardOws_quote (cs rest : List Char) :
    discardOws (quote cs ++ rest) = quote cs ++ rest := rfl

theorem item_quote {cs : List Char} (h : Printable cs) : item (quote cs) = some cs := by
  have hsp := discardSp_quote cs []
  have hstring := string_quote h []
  rw [List.append_nil] at hsp hstring
  rw [item, hsp, hstring]
  rfl

theorem join_cons_cons (cs ds : List Char) (items : List (List Char)) :
    join (cs :: ds :: items) = quote cs ++ ',' :: ' ' :: join (ds :: items) := by
  rw [join, List.map_cons, List.map_cons, List.intercalate_cons_cons, List.append_assoc]
  rfl

theorem exists_join_cons (cs : List Char) (items : List (List Char)) :
    ∃ rest, join (cs :: items) = quote cs ++ rest := by
  cases items with
  | nil => exact ⟨[], by simp [join]⟩
  | cons ds items => exact ⟨_, join_cons_cons cs ds items⟩

theorem members_join {cs : List Char} {items : List (List Char)} (h : ∀ ds ∈ cs :: items, Printable ds)
    {fuel : Nat} (hfuel : items.length < fuel) :
    members fuel (join (cs :: items)) = some (cs :: items) := by
  induction items generalizing cs fuel with
  | nil =>
      obtain ⟨fuel, rfl⟩ : ∃ n, fuel = n + 1 := ⟨fuel - 1, by omega⟩
      have hjoin : join [cs] = quote cs ++ [] := by simp [join]
      rw [hjoin, members, string_quote (h cs List.mem_cons_self)]
      rfl
  | cons ds items ih =>
      obtain ⟨fuel, rfl⟩ : ∃ n, fuel = n + 1 := ⟨fuel - 1, by omega⟩
      have hows : discardOws (',' :: ' ' :: join (ds :: items)) = ',' :: ' ' :: join (ds :: items) := rfl
      have hnext : discardOws (' ' :: join (ds :: items)) = join (ds :: items) := by
        obtain ⟨rest, hrest⟩ := exists_join_cons ds items
        rw [hrest]
        exact discardOws_quote ds rest
      have hmembers : members fuel (join (ds :: items)) = some (ds :: items) := by
        refine ih (fun es hes => h es (List.mem_cons_of_mem cs hes)) ?_
        rw [List.length_cons] at hfuel
        omega
      rw [join_cons_cons, members, string_quote (h cs List.mem_cons_self)]
      simp only [hows, hnext, hmembers, Option.map_some]

theorem length_lt_length_join (cs : List Char) (items : List (List Char)) :
    items.length < (join (cs :: items)).length := by
  induction items generalizing cs with
  | nil => simp [join, quote]
  | cons ds items ih =>
      have := ih ds
      rw [join_cons_cons]
      simp only [List.length_append, List.length_cons]
      omega

/-- A list of strings reads back. -/
theorem list_join {items : List (List Char)} (h : ∀ cs ∈ items, Printable cs) :
    list (join items) = some items := by
  cases items with
  | nil => rfl
  | cons cs items =>
      have hlen := length_lt_length_join cs items
      obtain ⟨rest, hrest⟩ := exists_join_cons cs items
      have hsp : discardSp (join (cs :: items)) = join (cs :: items) := by
        rw [hrest]
        exact discardSp_quote cs rest
      have hne : join (cs :: items) ≠ [] := by
        intro hnil
        simp [hnil] at hlen
      rw [list, hsp, if_neg hne]
      exact members_join h hlen

end RWebTransport.StructuredField
