import SchemeLexer.About
import SchemeLexer.Csv
import SchemeLexer.Program
import SchemeLexer.Proofs.Lexeme.Grammar
import SchemeLexer.Proofs.Lexeme.Steps
import SchemeLexer.Session
import SchemeLexer.Proofs.Lexeme.Layout
import SchemeLexer.Proofs.Classification
import SchemeLexer.Proofs.Program.Reading
import SchemeLexer.Proofs.Program.RoundTrip
import SchemeLexer.Proofs.Program.Decomposition
import SchemeLexer.Proofs.Lexeme.Inside
import SchemeLexer.Proofs.Lexeme.StringPadding
import SchemeLexer.Proofs.Lexeme.OutsidePadding
import SchemeLexer.Proofs.Lexeme.Legal
import SchemeLexer.Proofs.Lexeme.Retokenizing
import SchemeLexer.Proofs.Lexeme.Concatenation
import SchemeLexer.Proofs.Classification.Overlap
import SchemeLexer.Proofs.Classification.Padded
import SchemeLexer.Proofs.Json.Strings
import SchemeLexer.Proofs.Json.RoundTrip
import SchemeLexer.Proofs.Conversion
import SchemeLexer.Proofs.Cursor.Moves
import SchemeLexer.Proofs.Cursor.Invariant
import SchemeLexer.Proofs.Cursor.Advances
import SchemeLexer.Proofs.Session.Moves
import SchemeLexer.Proofs.Session.View
import SchemeLexer.Proofs.Session.Forks
import SchemeLexer.Proofs.Numeral.Grammar
import SchemeLexer.Proofs.Identifier.Grammar
import SchemeLexer.Proofs.Session.Scopes
import SchemeLexer.Proofs.Json.Limits
import SchemeLexer.Proofs.Conversion.Faults
import SchemeLexer.Proofs.Cursor.Lookahead
import SchemeLexer.Proofs.Conversion.Detection
import SchemeLexer.Proofs.Csv
import SchemeLexer.Proofs.Lexeme.Backslashes
import SchemeLexer.Proofs.Lexeme.StringLiterals
import SchemeLexer.Proofs.Json.Integers
import SchemeLexer.Proofs.Conversion.Members
