import ScriptLang.Main
import ScriptLang.Proofs.Addressing.Assignments
import ScriptLang.Proofs.Classes.Declaring
import ScriptLang.Proofs.Classes.Instances
import ScriptLang.Proofs.Command.Conversation
import ScriptLang.Proofs.Counted.Replies
import ScriptLang.Proofs.Events.Returns
import ScriptLang.Proofs.Frames.GlobalNames
import ScriptLang.Proofs.Frames.Searching
import ScriptLang.Proofs.Grammar.Brackets
import ScriptLang.Proofs.Grammar.DiagnosticOrder
import ScriptLang.Proofs.Grammar.Prefixes
import ScriptLang.Proofs.Grammar.Recovery
import ScriptLang.Proofs.Heap.Sessions
import ScriptLang.Proofs.Limits.CutSessions
import ScriptLang.Proofs.Loops.ForLoops
import ScriptLang.Proofs.Printing.RoundTrip
import ScriptLang.Proofs.Receivers.Inheritance
import ScriptLang.Proofs.Renaming.RenamedSessions
import ScriptLang.Proofs.Splitting.Submissions
import ScriptLang.Proofs.Token.LineBreaks
import ScriptLang.Proofs.Token.RecognizerOrder
import ScriptLang.Proofs.Token.Respelling
import ScriptLang.Proofs.Token.Segmentation
import ScriptLang.Proofs.Token.StrayCharacters
import ScriptLang.Proofs.Token.StringLiterals
