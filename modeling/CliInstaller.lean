import CliInstaller.Cpp.Files
import CliInstaller.Cpp.Runtime
import CliInstaller.General.Commands
import CliInstaller.General.Hierarchy
import CliInstaller.General.Logged
import CliInstaller.General.Machine
import CliInstaller.General.Nesting
import CliInstaller.General.Precedence
import CliInstaller.General.Replacing
import CliInstaller.General.Sed
import CliInstaller.General.Shell
import CliInstaller.General.Sorting
import CliInstaller.General.Splitting
import CliInstaller.Gucc.Btrfs
import CliInstaller.Gucc.CommandLines
import CliInstaller.Gucc.Crypttab
import CliInstaller.Gucc.CrypttabDevices
import CliInstaller.Gucc.Fstab
import CliInstaller.Gucc.FstabCrypttab
import CliInstaller.Gucc.FstabFields
import CliInstaller.Gucc.FstabKernelParams
import CliInstaller.Gucc.GrubConfig
import CliInstaller.Gucc.Initcpio
import CliInstaller.Gucc.InitcpioFrame
import CliInstaller.Gucc.InitcpioLines
import CliInstaller.Gucc.InitcpioReadBack
import CliInstaller.Gucc.InitcpioRefinement
import CliInstaller.Gucc.InitcpioRepeats
import CliInstaller.Gucc.InitcpioWrites
import CliInstaller.Gucc.InstallRepos
import CliInstaller.Gucc.KernelParams
import CliInstaller.Gucc.KernelParamsOrder
import CliInstaller.Gucc.LuksKeyfile
import CliInstaller.Gucc.MountPartitions
import CliInstaller.Gucc.Mtab
import CliInstaller.Gucc.PackageList
import CliInstaller.Gucc.PackageProfiles
import CliInstaller.Gucc.PacmanconfRepo
import CliInstaller.Gucc.Partition
import CliInstaller.Gucc.Partitioning
import CliInstaller.Gucc.Refind
import CliInstaller.Gucc.Repos
import CliInstaller.Gucc.SfdiskLines
import CliInstaller.Gucc.StreamEdits
import CliInstaller.Gucc.StringUtils
import CliInstaller.Gucc.SubvolumeFrame
import CliInstaller.Gucc.SubvolumeRoot
import CliInstaller.Gucc.SubvolumeTable
import CliInstaller.Gucc.UmountPartitions
import CliInstaller.Installer.Accounts
import CliInstaller.Installer.Autologin
import CliInstaller.Installer.BootParams
import CliInstaller.Installer.CommandWords
import CliInstaller.Installer.CryptDevices
import CliInstaller.Installer.Dialogs
import CliInstaller.Installer.EspStep
import CliInstaller.Installer.ExecFollow
import CliInstaller.Installer.Genfstab
import CliInstaller.Installer.HeadlessRun
import CliInstaller.Installer.InstallBase
import CliInstaller.Installer.InstallFromPkglist
import CliInstaller.Installer.Locale
import CliInstaller.Installer.LuksMenu
import CliInstaller.Installer.MountOrder
import CliInstaller.Installer.MountPartitions
import CliInstaller.Installer.MountSteps
import CliInstaller.Installer.MountedSchema
import CliInstaller.Installer.OwnLuks
import CliInstaller.Installer.ParseConfig
import CliInstaller.Installer.PartitionList
import CliInstaller.Installer.PartitionsPrepared
import CliInstaller.Installer.Passwords
import CliInstaller.Installer.RaidArrays
import CliInstaller.Installer.RaidDevice
import CliInstaller.Installer.ReadyPartitions
import CliInstaller.Installer.ReplaceAll
import CliInstaller.Installer.RootPaths
import CliInstaller.Installer.SelectFilesystem
import CliInstaller.Installer.SubvolumeMounts
import CliInstaller.Installer.Subvolumes
import CliInstaller.Installer.TakenPartitions
import CliInstaller.Installer.ZfsSetup
import CliInstaller.Installer.ZpoolName
