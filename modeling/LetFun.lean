import LetFun.Main
import LetFun.Proofs.Acceptance
import LetFun.Proofs.Artifact
import LetFun.Proofs.Layout
import LetFun.Proofs.Verdict
import LetFun.Proofs.Location
import LetFun.Proofs.Ranges
import LetFun.Proofs.Slices
import LetFun.Proofs.Spans
import LetFun.Proofs.Moved
import LetFun.Proofs.Reparsing
import LetFun.Proofs.Seams
import LetFun.Proofs.Concatenation
import LetFun.Proofs.Tokenization
import LetFun.Proofs.NestingLimit
import LetFun.Proofs.Outcomes
import LetFun.Proofs.Precedence
import LetFun.Proofs.Command.Offsets
import LetFun.Proofs.Artifact.Reading
import LetFun.Proofs.Scanning.Joined
import LetFun.Proofs.Expectation
import LetFun.Proofs.Indifference
import LetFun.Proofs.Replay
import LetFun.Proofs.Schema.Faults
import LetFun.Proofs.Json.Indentation
import LetFun.Proofs.Artifact.Indentation
import LetFun.Proofs.Artifact.Refusals
import LetFun.Proofs.Utf8.Encoding
import LetFun.Proofs.Yaml.Mapping
import LetFun.Proofs.Config
import LetFun.Proofs.FileTree.Failures
import LetFun.Proofs.Artifact.Frame
import LetFun.Proofs.Command.Widths
import LetFun.Proofs.Config.Outcomes
import LetFun.Proofs.Yaml.Merging
import LetFun.Proofs.Yaml.Construction
import LetFun.Proofs.Preorder
import LetFun.Proofs.Cursor.Agreement
