import PluginAudit.Proofs.Code.Balanced
import PluginAudit.Proofs.Text.Trim

/-!
# Pieces of any text

Every piece of a text is read without a comma outside strings and parentheses, and every one but the last to a state
outside them (`Segments`). White space at its ends changes neither, so the arguments of a text remain the same
however they are spaced (`arguments_spaced`), and listing them again gives the same list (`arguments_listed`).
-/
namespace PluginAudit.Code

namespace Scanner

variable {P : Token × Scanner → Prop} {s s' : Scanner} {t u : Text} {c : Char}

/-- The number of commas outside strings that the scanner meets at a given depth. -/
def separators (s : Scanner) (depth : Int) (t : Text) : Nat :=
  (s.trace t).countP fun (token, after) => token = .separator ∧ after.depth = depth

theorem separators_cons (s : Scanner) (depth : Int) (c : Char) (t : Text) : s.separators depth (c :: t) =
    (s.step c).2.separators depth t + if (s.step c).1 = .separator ∧ (s.step c).2.depth = depth then 1 else 0 := by
  simp [separators, trace, List.countP_cons]

theorem Reads.left (reads : Reads P s (t ++ u) s') : Reads P s t (s.run t) :=
  ⟨rfl, fun step mem => reads.2 step (by rw [trace_append]; exact List.mem_append_left _ mem)⟩

theorem Reads.right (reads : Reads P s (t ++ u) s') : Reads P (s.run t) u s' :=
  ⟨by rw [← run_append, reads.1],
    fun step mem => reads.2 step (by rw [trace_append]; exact List.mem_append_right _ mem)⟩

/-- The scanner stays where it is over a comma between arguments. -/
theorem step_of_separator (separator : (s.step c).1 = .separator) :
    c = ',' ∧ s.inString = false ∧ (s.step c).2 = s := by
  unfold step at separator ⊢
  split_ifs at separator ⊢
  simp_all

theorem step_blank (white : isBlank c) (outside : s.inString = false) : s.step c = (.text, s) := by
  obtain ⟨notQuote, notOpening, notClosing, notComma⟩ := isDelimiter_eq_false_iff.mp (isDelimiter_of_isBlank white)
  rw [step_plain outside notQuote notOpening notClosing, if_neg notComma]

theorem inString_step_blank (white : isBlank c) : (s.step c).2.inString = s.inString := by
  cases inside : s.inString with
  | false => rw [step_blank white inside, inside]
  | true =>
    have notQuote : c ≠ '"' := by
      rintro rfl
      revert white
      decide
    unfold step
    split_ifs <;> simp_all

theorem inString_run_blank (white : t.blank) : (s.run t).inString = s.inString := by
  induction t generalizing s with
  | nil => rfl
  | cons c t ih =>
    obtain ⟨first, rest⟩ := Text.blank_cons_iff.mp white
    rw [run_cons, ih rest, inString_step_blank first]

theorem run_blank (white : t.blank) (outside : s.inString = false) : s.run t = s := by
  induction t with
  | nil => rfl
  | cons c t ih =>
    obtain ⟨first, rest⟩ := Text.blank_cons_iff.mp white
    rw [run_cons, step_blank first outside, ih rest]

theorem reads_blank (white : t.blank) : Reads (fun step => ¬ Cuts step) s t (s.run t) := by
  induction t generalizing s with
  | nil => exact .nil
  | cons c t ih =>
    obtain ⟨first, rest⟩ := Text.blank_cons_iff.mp white
    refine .cons (fun cuts => ?_) (ih rest)
    obtain ⟨rfl, -⟩ := step_of_separator cuts.1
    revert first
    decide

/-- However a text is spaced, the scanner goes through it and meets no comma that it did not meet. -/
theorem Reads.spaced {before after : Text} (white : before.blank) (white' : after.blank)
    (outside : s.inString = false) (reads : Reads (fun step => ¬ Cuts step) s t s') :
    Reads (fun step => ¬ Cuts step) s (before ++ t ++ after) (s'.run after) := by
  have gap := reads_blank (s := s) white
  rw [run_blank white outside] at gap
  exact (gap.append reads).append (reads_blank white')

/-- Trimming a text takes no comma from it, and leads to the same state unless that is inside a string. -/
theorem Reads.trim (outside : s.inString = false) (reads : Reads P s t s') :
    ∃ s'' : Scanner, Reads P s t.trim s'' ∧ s''.inString = s'.inString ∧ (s'.inString = false → s'' = s') := by
  obtain ⟨before, after, white, white', eq⟩ := t.exists_blank_trim_blank
  rw [eq] at reads
  have ends := reads.right.1
  rw [run_append, run_blank white outside] at ends
  have kept := reads.left.right
  rw [run_append, run_blank white outside] at kept
  refine ⟨s.run t.trim, kept, ?_, fun outside' => ?_⟩
  · rw [← ends, inString_run_blank white']
  · rw [← ends, inString_run_blank white'] at outside'
    rw [← ends, run_blank white' outside']

end Scanner

open Scanner

theorem segments_pieces (s : Scanner) (t : Text) : Segments s (pieces s t) := by
  induction t generalizing s with
  | nil => exact .last .nil
  | cons c t ih =>
    simp only [pieces]
    split
    next cut =>
      obtain ⟨-, outside, still⟩ := step_of_separator cut.1
      rw [still] at cut ⊢
      exact .cons .nil outside cut.2 (ih s)
    next whole =>
      have rest := ih (s.step c).2
      cases eq : pieces (s.step c).2 t with
      | nil => exact absurd eq (pieces_ne_nil _ _)
      | cons piece others =>
        rw [eq] at rest
        -- the character joins the first piece, which may be the last one too
        cases rest with
        | last reads => exact .last (.cons whole reads)
        | cons reads outside outermost rest => exact .cons (.cons whole reads) outside outermost rest

/-- Pieces of a text remain its pieces however they are spaced. -/
theorem Segments.spaced {s : Scanner} {ts : List Text} (segments : Segments s ts) (outside : s.inString = false)
    (before after : Nat → Gap) : Segments s (spaced before after (ts.map Text.trim)) := by
  induction segments generalizing before after with
  | last reads =>
    obtain ⟨s'', reads', -⟩ := reads.trim outside
    exact .last (reads'.spaced (before 0).white (after 0).white outside)
  | @cons s s' t ts reads outside' outermost rest ih =>
    obtain ⟨s'', reads', -, same⟩ := reads.trim outside
    obtain rfl := same outside'
    have first := reads'.spaced (before 0).white (after 0).white outside
    rw [run_blank (after 0).white outside'] at first
    rw [List.map_cons, spaced_cons]
    exact .cons first outside' outermost (ih outside' _ _)

theorem length_pieces (s : Scanner) (t : Text) : (pieces s t).length = s.separators 0 t + 1 := by
  induction t generalizing s with
  | nil => rfl
  | cons c t ih =>
    have rest := ih (s.step c).2
    rw [separators_cons]
    simp only [pieces]
    split
    next cut => rw [List.length_cons, rest]
    next whole =>
      cases eq : pieces (s.step c).2 t with
      | nil => exact absurd eq (pieces_ne_nil _ _)
      | cons piece others => simpa [eq] using rest

theorem arguments_of_visible {t : Text} (visible : t.blank = false) :
    arguments t = (pieces .start t).map Text.trim := by
  rw [arguments, visible, if_neg (by decide)]

/-- The arguments of a text are the same however they are spaced. -/
theorem arguments_spaced (before after : Nat → Gap) (t : Text) :
    arguments ([','].intercalate (spaced before after (arguments t))) = arguments t := by
  cases visible : t.blank with
  | true =>
    have none : arguments t = [] := if_pos visible
    rw [none]
    rfl
  | false =>
    have listed := arguments_of_visible visible
    have segments := (segments_pieces .start t).spaced rfl before after
    have trimmed : (spaced before after (arguments t)).map Text.trim = arguments t := by
      refine map_trim_spaced before after fun argument mem => ?_
      rw [listed] at mem
      obtain ⟨piece, -, rfl⟩ := List.mem_map.mp mem
      exact Text.trim_trim piece
    rw [← listed] at segments
    -- one blank argument would be that of a blank text
    have solid : Text.blank ([','].intercalate (spaced before after (arguments t))) = false := by
      rw [← Bool.not_eq_true, blank_intercalate_iff segments.ne_nil, trimmed, listed,
        ← blank_intercalate_iff (pieces_ne_nil .start t), intercalate_pieces, visible]
      decide
    rw [arguments_of_visible solid, segments.pieces_intercalate, trimmed]

/-- The white space in front of the members of an enumeration. -/
def afterComma : Nat → Gap
  | 0 => .none
  | _ + 1 => .space

theorem intercalate_spaced {ts : List Text} (nonempty : ts ≠ []) {before : Nat → Gap}
    (later : before ∘ Nat.succ = afterComma ∘ Nat.succ) :
    [','].intercalate (spaced before (fun _ => .none) ts) = (before 0).text ++ Text.enumerate ts := by
  induction ts generalizing before with
  | nil => exact absurd rfl nonempty
  | cons t ts ih =>
    cases ts with
    | nil => simp [Text.enumerate, spaced]
    | cons u us =>
      have second : (before 1).text = [' '] := congrArg Gap.text (congrFun later 0)
      have rest : [','].intercalate (spaced (before ∘ Nat.succ) (fun _ => .none) (u :: us)) =
          (before 1).text ++ Text.enumerate (u :: us) := ih (by simp) (by rw [later]; rfl)
      have separator : lit ", " = [',', ' '] := rfl
      calc [','].intercalate (spaced before (fun _ => .none) (t :: u :: us))
        _ = (before 0).text ++ t ++
            ',' :: [','].intercalate (spaced (before ∘ Nat.succ) (fun _ => .none) (u :: us)) := by
          rw [spaced_cons, spaced_cons, List.intercalate_cons_cons, ← spaced_cons]
          simp
          rfl
        _ = (before 0).text ++ t ++ ',' :: ' ' :: Text.enumerate (u :: us) := by
          rw [rest, second, List.singleton_append]
        _ = (before 0).text ++ Text.enumerate (t :: u :: us) := by
          rw [Text.enumerate, Text.enumerate, List.intercalate_cons_cons, separator]
          simp

theorem enumerate_eq (ts : List Text) :
    Text.enumerate ts = [','].intercalate (spaced afterComma (fun _ => .none) ts) := by
  cases ts with
  | nil => rfl
  | cons t ts => exact (intercalate_spaced (by simp) rfl).symm

/-- A text that is not blank consists of pieces with commas between them, one more than it has commas outside
    strings and parentheses, and its arguments are the trimmed pieces. The arguments of a text, enumerated,
    have themselves for arguments. Neither needs its strings and parentheses to be closed. -/
theorem arguments_listed (t : Text) :
    (t.blank = false → ∃ ps : List Text, ps.length = Scanner.start.separators 0 t + 1 ∧ [','].intercalate ps = t ∧
      arguments t = ps.map Text.trim) ∧
    arguments (Text.enumerate (arguments t)) = arguments t := by
  refine ⟨fun visible => ?_, ?_⟩
  · exact ⟨pieces .start t, length_pieces .start t, intercalate_pieces .start t, arguments_of_visible visible⟩
  · rw [enumerate_eq, arguments_spaced]

end PluginAudit.Code
