import Coach.Json.Shown
import Coach.Model.Reply
import Coach.Tutor.Prompt

/-!
# Translating a program

A model is asked for the program in Java. Without an answer there is a skeleton to be filled in by
hand, so a fault of a service is never a fault of the translation.

## Main definitions

* `skeleton`: the program that stands for a missing translation
* `translate`: the translation of a program
-/

namespace Coach.Tutor

open Coach.Model Coach.Service Coach.Text

/-- The program that stands for a missing translation. -/
def skeleton : String :=
  asLines [
    "public class Main \x7b",
    "    public static void main(String[] args) \x7b",
    "        // Error: AI Service Unavailable for full translation.",
    "        // Copy your logic here manually.",
    "        System.out.println(\"Please check API connection.\");",
    "    \x7d",
    "\x7d"]

/-- The program in a reply, whatever value the reply is. -/
def programOf (reply : Json) : String :=
  let program := strip (stripFences reply.shown.toList)
  if program.isEmpty then skeleton else String.ofList program

/-- What a model's answer comes to. -/
def translationOf : Except Fault Json → Except Fault String
  | .ok reply => .ok (programOf reply)
  | .error fault =>
    if fault.isA .service || fault.isA .security then .ok skeleton else .error fault

/-- The translation of a program in another language. -/
def translate {σ : Type} (model : Option (Model σ)) (code language : String) (s : σ) :
    Except Fault String × σ :=
  match model with
  | none => (.ok skeleton, s)
  | some model =>
    let (answer, s) :=
      model { messages := translateMessages code language, wantsObject := false } s
    (translationOf answer, s)

end Coach.Tutor
