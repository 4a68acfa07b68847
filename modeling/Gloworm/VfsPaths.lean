import Gloworm.VfsBalance

/-! Path lookup as a fold over the components of a path. -/
namespace Gloworm.Vfs
open List Option

def spell (trailing : Bool) : List Name → Name
  | [] => []
  | [c] => if trailing then c ++ [vfsSep] else c
  | c :: d :: cs => c ++ vfsSep :: spell trailing (d :: cs)

def spellPath (leading trailing : Bool) (cs : List Name) : Name :=
  if leading then vfsSep :: spell trailing cs else spell trailing cs

def IsComponent (c : Name) : Prop := c ≠ [] ∧ vfsSep ∉ c
deriving Decidable

def andThen (r : Option (Except ℤ ℕ)) (f : ℕ → Option (Except ℤ ℕ)) : Option (Except ℤ ℕ) :=
  match r with
  | none => none
  | some (.error e) => some (.error e)
  | some (.ok v) => f v

@[simp] lemma andThen_none (f : ℕ → Option (Except ℤ ℕ)) : andThen none f = none := rfl

@[simp] lemma andThen_error (e : ℤ) (f : ℕ → Option (Except ℤ ℕ)) :
    andThen (some (.error e)) f = some (.error e) := rfl

@[simp] lemma andThen_ok (v : ℕ) (f : ℕ → Option (Except ℤ ℕ)) :
    andThen (some (.ok v)) f = f v := rfl

lemma andThen_assoc (r : Option (Except ℤ ℕ)) (f g : ℕ → Option (Except ℤ ℕ)) :
    andThen (andThen r f) g = andThen r fun v => andThen (f v) g := by
  rcases r with _ | _ | _ <;> rfl

variable {trailing parentOf leading : Bool} {cs pre rest : List Name} {c : Name}

section Fold
variable {D : Type} (fs : Fs D) (w : World D) (mounts : ℕ → Mount) (uid : ℕ)

def step (dir : ℕ) (c : Name) : Option (Except ℤ ℕ) :=
  if !sIsdir (w.node dir).mode then some (.error ENOTDIR)
  else if !verifyModeAccess uid rOk (w.node dir) then some (.error EPERM)
  else (left w mounts dir c).map fun d => fs.lookup w d c

def walk (start : ℕ) (cs : List Name) : Option (Except ℤ ℕ) :=
  cs.foldl (fun r c => andThen (andThen r fun dir => step fs w mounts uid dir c) (entered w mounts))
    (entered w mounts start)

def reach : ℕ → List Name → Option (Except ℤ ℕ)
  | cur, [] => some (.ok cur)
  | cur, c :: cs =>
    andThen (andThen (entered w mounts cur) fun dir => step fs w mounts uid dir c) fun next =>
      reach next cs

def resolvedNames : ℕ → ℕ → Name → List Name
  | 0, _, _ => []
  | fuel + 1, cur, path =>
    match entered w mounts cur with
    | some (.ok dir) =>
      if path = [] then []
      else match step fs w mounts uid dir (nextComponent fs path).1 with
        | some (.ok next) =>
          (nextComponent fs path).1 :: resolvedNames fuel next (nextComponent fs path).2
        | _ => []
    | _ => []

lemma walk_eq_reach (start : ℕ) (cs : List Name) :
    walk fs w mounts uid start cs = andThen (reach fs w mounts uid start cs) (entered w mounts) := by
  have hfold : ∀ r : Option (Except ℤ ℕ), cs.foldl
      (fun r c => andThen (andThen r fun dir => step fs w mounts uid dir c) (entered w mounts))
      (andThen r (entered w mounts)) =
      andThen (andThen r fun cur => reach fs w mounts uid cur cs) (entered w mounts) := by
    induction cs with
    | nil => intro r; rcases r with _ | _ | _ <;> rfl
    | cons c cs ih =>
      intro r
      rw [foldl_cons, ih]
      simp only [andThen_assoc, reach]
  exact hfold (some (.ok start))

variable {fs w mounts uid}

lemma spell_ne_nil (hcs : ∀ c ∈ cs, IsComponent c) (hne : cs ≠ []) : spell trailing cs ≠ [] := by
  cases cs with
  | nil => exact absurd rfl hne
  | cons c cs =>
    have hc := (hcs c mem_cons_self).1
    cases cs with
    | nil =>
      rw [spell]
      split_ifs <;> simp [hc]
    | cons d cs => simp [spell]

def behind (trailing : Bool) : List Name → Name
  | [] => if trailing then [vfsSep] else []
  | d :: cs => vfsSep :: spell trailing (d :: cs)

lemma spell_cons (trailing : Bool) (c : Name) (cs : List Name) :
    spell trailing (c :: cs) = c ++ behind trailing cs := by
  cases cs with
  | nil =>
    rw [spell, behind]
    split_ifs <;> simp
  | cons d cs => rfl

lemma takeWhile_behind (trailing : Bool) (cs : List Name) (n : ℕ) :
    ((behind trailing cs).take n).takeWhile (· ≠ vfsSep) = [] := by
  cases n with
  | zero => rfl
  | succ n =>
    cases cs with
    | nil => cases trailing <;> simp [behind]
    | cons d cs => simp [behind]

lemma takeWhile_component (hc : vfsSep ∉ c) : c.takeWhile (· ≠ vfsSep) = c := by
  rw [takeWhile_eq_self_iff]
  intro x hx
  have hne : x ≠ vfsSep := by
    rintro rfl
    exact hc hx
  simpa using hne

lemma nextComponent_spell (hc : IsComponent c) (hshort : c.length < fs.nameMax) :
    nextComponent fs (spell trailing (c :: cs)) = (c, spell trailing cs) := by
  have hnext : ((spell trailing (c :: cs)).take (fs.nameMax - 1)).takeWhile (· ≠ vfsSep) = c := by
    rw [spell_cons, take_append, take_of_length_le (by omega),
      takeWhile_append_of_pos, takeWhile_behind, append_nil]
    exact takeWhile_eq_self_iff.mp (takeWhile_component hc.2)
  simp only [nextComponent, hnext]
  rw [spell_cons, drop_left]
  cases cs with
  | nil => cases trailing <;> simp [behind, spell]
  | cons d cs => simp [behind]

lemma nextComponent_long (hc : IsComponent c) (hlong : fs.nameMax ≤ c.length) :
    (nextComponent fs (spell trailing (c :: cs))).1 = c.take (fs.nameMax - 1) := by
  simp only [nextComponent]
  rw [spell_cons, take_append_of_le_length (by omega)]
  apply takeWhile_component
  intro hmem
  exact hc.2 (mem_of_mem_take hmem)

lemma resolveLoop_of_ne {fuel cur : ℕ} {path : Name} (hpath : path ≠ [])
    (hstop : parentOf = false ∨ (nextComponent fs path).2 ≠ []) :
    resolveLoop fs w mounts parentOf uid (fuel + 1) cur path =
      andThen (andThen (entered w mounts cur) fun dir =>
        step fs w mounts uid dir (nextComponent fs path).1) fun next =>
          resolveLoop fs w mounts parentOf uid fuel next (nextComponent fs path).2 := by
  have hgo : ¬(parentOf = true ∧ (nextComponent fs path).2 = []) := by
    rintro ⟨hparent, hrest⟩
    rcases hstop with h | h
    · simp [h] at hparent
    · exact h hrest
  rw [resolveLoop]
  cases entered w mounts cur with
  | none => rfl
  | some r =>
    cases r with
    | error e => rfl
    | ok dir =>
      simp only [andThen_ok, step, if_neg hpath, if_neg hgo]
      split_ifs
      · rfl
      · rfl
      · cases left w mounts dir (nextComponent fs path).1 with
        | none => rfl
        | some d =>
          simp only [map_some]
          cases fs.lookup w d (nextComponent fs path).1 <;> rfl

lemma resolveLoop_nil (parentOf : Bool) (fuel cur : ℕ) :
    resolveLoop fs w mounts parentOf uid (fuel + 1) cur [] = entered w mounts cur := by
  rw [resolveLoop]
  rcases entered w mounts cur with _ | _ | _ <;> simp

lemma resolveLoop_append (hcs : ∀ c ∈ pre ++ rest, IsComponent c)
    (hshort : ∀ c ∈ pre, c.length < fs.nameMax) (hstop : parentOf = false ∨ rest ≠ [])
    (fuel cur : ℕ) :
    resolveLoop fs w mounts parentOf uid (pre.length + fuel) cur (spell trailing (pre ++ rest)) =
      andThen (reach fs w mounts uid cur pre) fun d =>
        resolveLoop fs w mounts parentOf uid fuel d (spell trailing rest) := by
  induction pre generalizing cur with
  | nil => simp [reach]
  | cons c pre ih =>
    have hnext : nextComponent fs (spell trailing (c :: (pre ++ rest))) = _ :=
      nextComponent_spell (hcs c mem_cons_self) (hshort c mem_cons_self)
    have hne : spell trailing (c :: (pre ++ rest)) ≠ [] := spell_ne_nil hcs (cons_ne_nil _ _)
    have htail : ∀ d ∈ pre ++ rest, IsComponent d :=
      fun d hd => hcs d (mem_cons_of_mem _ hd)
    rw [cons_append, length_cons, add_right_comm, resolveLoop_of_ne hne, hnext, reach,
      andThen_assoc _ _ fun d => resolveLoop fs w mounts parentOf uid fuel d (spell trailing rest)]
    · congr 1
      funext next
      exact ih htail (fun d hd => hshort d (mem_cons_of_mem _ hd)) next
    · rw [hnext]
      rcases hstop with h | h
      · exact .inl h
      · exact .inr (spell_ne_nil htail (by simp [h]))

variable (w mounts uid)

lemma resolvedNames_append (trailing : Bool) (hcs : ∀ c ∈ pre ++ rest, IsComponent c)
    (hshort : ∀ c ∈ pre, c.length < fs.nameMax) (fuel cur : ℕ) :
    (∃ d, reach fs w mounts uid cur pre = some (.ok d) ∧
      resolvedNames fs w mounts uid (pre.length + fuel) cur (spell trailing (pre ++ rest)) =
        pre ++ resolvedNames fs w mounts uid fuel d (spell trailing rest)) ∨
    ((∀ d, reach fs w mounts uid cur pre ≠ some (.ok d)) ∧
      resolvedNames fs w mounts uid (pre.length + fuel) cur (spell trailing (pre ++ rest)) <+:
        pre) := by
  induction pre generalizing cur with
  | nil => exact .inl ⟨cur, rfl, by simp⟩
  | cons c pre ih =>
    have hnext : nextComponent fs (spell trailing (c :: (pre ++ rest))) = _ :=
      nextComponent_spell (hcs c mem_cons_self) (hshort c mem_cons_self)
    have hne : spell trailing (c :: (pre ++ rest)) ≠ [] := spell_ne_nil hcs (cons_ne_nil _ _)
    rw [cons_append, length_cons, add_right_comm, resolvedNames, reach, hnext]
    rcases entered w mounts cur with _ | e | dir
    · exact .inr ⟨by simp, nil_prefix⟩
    · exact .inr ⟨by simp, nil_prefix⟩
    · simp only [andThen_ok, if_neg hne]
      rcases step fs w mounts uid dir c with _ | e | next
      · exact .inr ⟨by simp, nil_prefix⟩
      · exact .inr ⟨by simp, nil_prefix⟩
      · have htail := ih (fun d hd => hcs d (mem_cons_of_mem _ hd))
          (fun d hd => hshort d (mem_cons_of_mem _ hd)) next
        rcases htail with ⟨d, hreach, hnames⟩ | ⟨hreach, hnames⟩
        · exact .inl ⟨d, hreach, congrArg (List.cons c) hnames⟩
        · exact .inr ⟨hreach, (prefix_cons_inj c).mpr hnames⟩

lemma long_resolved_iff {fuel cur dir : ℕ} (hcs : ∀ d ∈ c :: rest, IsComponent d)
    (hlong : fs.nameMax ≤ c.length) (hentered : entered w mounts cur = some (.ok dir)) :
    pre ++ resolvedNames fs w mounts uid (fuel + 1) cur (spell trailing (c :: rest)) <+:
        pre ++ c :: rest ∧
      resolveLoop fs w mounts false uid (fuel + 1) cur (spell trailing (c :: rest)) =
        some (.error ENAMETOOLONG) ↔
    step fs w mounts uid dir (c.take (fs.nameMax - 1)) = some (.error ENAMETOOLONG) := by
  have hne : spell trailing (c :: rest) ≠ [] := spell_ne_nil hcs (cons_ne_nil _ _)
  have hge := fs.nameMax_ge
  have hpiece : c.take (fs.nameMax - 1) ≠ c := by
    intro heq
    have hlength := congrArg List.length heq
    rw [length_take] at hlength
    omega
  rw [resolveLoop_of_ne hne (.inl rfl), resolvedNames, hentered, andThen_ok,
    nextComponent_long (hcs c mem_cons_self) hlong, prefix_append_right_inj]
  simp only [if_neg hne]
  rcases step fs w mounts uid dir (c.take (fs.nameMax - 1)) with _ | e | next
  · simp
  · simp
  · simp only [cons_prefix_cons, hpiece, false_and, some.injEq, reduceCtorEq]
end Fold
section Lookup
variable {D : Type} (fs : Fs D) (s : State D) (cwd : Option ℕ) (uid : ℕ)

def startNode (leading : Bool) : Option ℕ :=
  let root := do (s.mounts (← s.rootFs)).rootNode
  if leading then root else cwd.orElse fun _ => root

def walkPath (leading : Bool) (cs : List Name) : Option (Except ℤ ℕ) :=
  (startNode s cwd leading).bind fun start => walk fs s.world s.mounts uid start cs

def pathNames (path : Name) : List Name :=
  match lookupStart s cwd path with
  | none => []
  | some start => resolvedNames fs s.world s.mounts uid (start.2.length + 2) start.1 start.2

/-- The answer is that of the last component, or `ENAMETOOLONG` if one is too long. -/
def ResolvesComponents (leading trailing : Bool) (cs : List Name) : Prop :=
  pathNames fs s cwd uid (spellPath leading trailing cs) <+: cs ∧
    (vfsLookup fs s cwd (spellPath leading trailing cs) false uid).map Prod.fst =
      if ∃ c ∈ cs, fs.nameMax ≤ c.length then some (.error ENAMETOOLONG)
      else walkPath fs s cwd uid leading cs

variable {fs s cwd uid}

section
variable (hcs : ∀ c ∈ cs, IsComponent c)
include hcs

lemma head_spell_ne : (spell trailing cs).head? ≠ some vfsSep := by
  cases cs with
  | nil => simp [spell]
  | cons c cs =>
    obtain ⟨hne, hsep⟩ := hcs c mem_cons_self
    cases c with
    | nil => exact absurd rfl hne
    | cons x c =>
      rw [spell_cons]
      simp only [cons_append, List.head?_cons, ne_eq, some.injEq]
      rintro rfl
      exact hsep mem_cons_self

lemma lookupStart_spellPath : lookupStart s cwd (spellPath leading trailing cs) =
      (startNode s cwd leading).map fun v => (v, spell trailing cs) := by
  unfold lookupStart startNode spellPath
  cases leading with
  | true => simp
  | false => simp [head_spell_ne hcs]

lemma length_le_spell : cs.length ≤ (spell trailing cs).length := by
  induction cs with
  | nil => simp
  | cons c cs ih =>
    have hc : 0 < c.length := length_pos_of_ne_nil (hcs c mem_cons_self).1
    have htail := ih fun d hd => hcs d (mem_cons_of_mem _ hd)
    rw [spell_cons, length_append, length_cons]
    cases cs with
    | nil =>
      rw [length_nil]
      omega
    | cons d cs =>
      have hbehind : (behind trailing (d :: cs)).length = (spell trailing (d :: cs)).length + 1 := rfl
      omega
end

lemma fst_vfsLookup (path : Name) (parentOf : Bool) :
    (vfsLookup fs s cwd path parentOf uid).map Prod.fst = resolve fs s cwd path parentOf uid := by
  rw [vfsLookup_eq, Option.map_map]
  exact Option.map_id'

lemma pathNames_spellPath (hcs : ∀ c ∈ cs, IsComponent c) {start : ℕ}
    (hstart : startNode s cwd leading = some start) :
    pathNames fs s cwd uid (spellPath leading trailing cs) =
      resolvedNames fs s.world s.mounts uid ((spell trailing cs).length + 2) start
        (spell trailing cs) := by
  rw [pathNames, lookupStart_spellPath hcs, hstart, map_some]

lemma resolve_spellPath (hcs : ∀ c ∈ cs, IsComponent c) :
    resolve fs s cwd (spellPath leading trailing cs) parentOf uid =
      (startNode s cwd leading).bind fun start => resolveLoop fs s.world s.mounts parentOf uid
        ((spell trailing cs).length + 2) start (spell trailing cs) := by
  rw [resolve, lookupStart_spellPath hcs, bind_map]
  rfl

lemma exists_fuel (trailing : Bool) (hcs : ∀ c ∈ pre ++ rest, IsComponent c) :
    ∃ fuel, (spell trailing (pre ++ rest)).length + 2 = pre.length + (fuel + 1 + 1) := by
  have hle : (pre ++ rest).length ≤ (spell trailing (pre ++ rest)).length := length_le_spell hcs
  rw [length_append] at hle
  exact ⟨(spell trailing (pre ++ rest)).length - pre.length, by omega⟩

lemma resolves_short (hcs : ∀ c ∈ cs, IsComponent c) (hshort : ∀ c ∈ cs, c.length < fs.nameMax) :
    ResolvesComponents fs s cwd uid leading trailing cs := by
  have hnone : ¬∃ c ∈ cs, fs.nameMax ≤ c.length := by
    rintro ⟨c, hc, hlong⟩
    have hc' := hshort c hc
    omega
  rw [← append_nil cs] at hcs
  obtain ⟨fuel, hfuel⟩ := exists_fuel trailing hcs
  rw [ResolvesComponents, if_neg hnone, fst_vfsLookup, walkPath]
  rw [← append_nil cs, resolve_spellPath hcs]
  cases hstart : startNode s cwd leading with
  | none =>
    refine ⟨?_, rfl⟩
    rw [pathNames, lookupStart_spellPath hcs, hstart, map_none]
    exact nil_prefix
  | some start =>
    rw [pathNames_spellPath hcs hstart, hfuel]
    constructor
    · rcases resolvedNames_append s.world s.mounts uid trailing hcs hshort (fuel + 1 + 1) start with
        ⟨d, -, hnames⟩ | ⟨-, hnames⟩
      · rw [hnames, spell, resolvedNames]
        rcases entered s.world s.mounts d with _ | _ | _ <;> simp
      · simpa using hnames
    · rw [bind_some, bind_some, resolveLoop_append hcs hshort (.inl rfl), append_nil, walk_eq_reach]
      congr 1
      funext d
      exact resolveLoop_nil false (fuel + 1) d

lemma exists_first_long {n : ℕ} (h : ¬∀ c ∈ cs, c.length < n) :
    ∃ pre c rest, cs = pre ++ c :: rest ∧ (∀ d ∈ pre, d.length < n) ∧ n ≤ c.length := by
  induction cs with
  | nil => simp at h
  | cons c cs ih =>
    by_cases hc : c.length < n
    · obtain ⟨pre, d, rest, rfl, hpre, hd⟩ := ih (by simpa [hc] using h)
      refine ⟨c :: pre, d, rest, rfl, ?_, hd⟩
      simpa [hc] using hpre
    · exact ⟨[], c, cs, rfl, by simp, by omega⟩

lemma resolves_long_iff (hcs : ∀ d ∈ pre ++ c :: rest, IsComponent d)
    (hshort : ∀ d ∈ pre, d.length < fs.nameMax) (hlong : fs.nameMax ≤ c.length) :
    ResolvesComponents fs s cwd uid leading trailing (pre ++ c :: rest) ↔
      andThen (walkPath fs s cwd uid leading pre) (fun dir =>
        step fs s.world s.mounts uid dir (c.take (fs.nameMax - 1))) =
          some (.error ENAMETOOLONG) := by
  have hsome : ∃ d ∈ pre ++ c :: rest, fs.nameMax ≤ d.length := ⟨c, by simp, hlong⟩
  obtain ⟨fuel, hfuel⟩ := exists_fuel trailing hcs
  rw [ResolvesComponents, if_pos hsome, fst_vfsLookup, walkPath, resolve_spellPath hcs]
  cases hstart : startNode s cwd leading with
  | none => simp
  | some start =>
    rw [pathNames_spellPath hcs hstart, hfuel, bind_some, bind_some,
      resolveLoop_append hcs hshort (.inl rfl), walk_eq_reach]
    rcases resolvedNames_append s.world s.mounts uid trailing hcs hshort (fuel + 1 + 1) start with
      ⟨d, hreach, hnames⟩ | ⟨hreach, hnames⟩
    · rw [hnames, hreach, andThen_ok, andThen_ok]
      rcases hentered : entered s.world s.mounts d with _ | e | dir
      · simp [resolveLoop, hentered]
      · simp [resolveLoop, resolvedNames, hentered]
      · exact long_resolved_iff s.world s.mounts uid
          (fun x hx => hcs x (mem_append_right _ hx)) hlong hentered
    · have hprefix : pre <+: pre ++ c :: rest := prefix_append pre _
      rcases hr : reach fs s.world s.mounts uid start pre with _ | e | d
      · simp
      · simp only [andThen_error, and_iff_right_iff_imp]
        intro _
        exact hnames.trans hprefix
      · exact absurd hr (hreach d)

/-- A path is resolved by the fold exactly if no component is too long, or the answer is already
`ENAMETOOLONG` by the first such one. -/
theorem resolvesComponents_iff (leading trailing : Bool) {cs : List Name}
    (hcs : ∀ c ∈ cs, IsComponent c) : ResolvesComponents fs s cwd uid leading trailing cs ↔
      (∀ c ∈ cs, c.length < fs.nameMax) ∨
        ∃ pre c rest, cs = pre ++ c :: rest ∧ (∀ d ∈ pre, d.length < fs.nameMax) ∧
          fs.nameMax ≤ c.length ∧
          andThen (walkPath fs s cwd uid leading pre) (fun dir =>
            step fs s.world s.mounts uid dir (c.take (fs.nameMax - 1))) =
              some (.error ENAMETOOLONG) := by
  constructor
  · intro h
    by_cases hall : ∀ c ∈ cs, c.length < fs.nameMax
    · exact .inl hall
    · obtain ⟨pre, c, rest, rfl, hshort, hlong⟩ := exists_first_long hall
      exact .inr ⟨pre, c, rest, rfl, hshort, hlong,
        (resolves_long_iff hcs hshort hlong).mp h⟩
  · rintro (hall | ⟨pre, c, rest, rfl, hshort, hlong, herror⟩)
    · exact resolves_short hcs hall
    · exact (resolves_long_iff hcs hshort hlong).mpr herror
end Lookup

def longNamesFs : Fs (ℕ → ℕ) :=
  { plainFs with
    lookup := fun _ v name =>
      if v = 1 ∧ name = List.replicate 63 97 then .ok 1
      else if v = 1 ∧ name = [98] then .ok 2 else .error ENOENT }

theorem nested_path_resolved : ResolvesComponents longNamesFs (plainState false) none 0 true false
    [List.replicate 63 97, [98]] :=
  (resolvesComponents_iff true false (by decide)).mpr (.inl (by decide))

/-- A name that is too long is taken for two. -/
theorem long_name_split : IsComponent (List.replicate 63 97 ++ [98]) ∧
      longNamesFs.nameMax ≤ (List.replicate 63 97 ++ [98] : Name).length ∧
      (vfsLookup longNamesFs (plainState false) none
        (spellPath true false [List.replicate 63 97 ++ [98]]) false 0).map Prod.fst =
          some (.ok 2) := by
  decide +kernel

end Gloworm.Vfs
